import Telemax.Lib.AsyncLock
import Telemax.Lib.Dict
import Telemax.Lib.Run
import Telemax.Lib.Tasks

/-!
# Telemax.Telegram.Registry

`BotRegistry`: bridges come up and go down while the process runs, any number of
calls at once.  A step is what runs from one await to the next.

A bridge is registered under the lock; its menu is published and its runner started
after the lock is given back, and a runner is stopped after its bridge has left the
maps.
-/

namespace Telemax.Telegram.Registry

open AsyncLock (Lock)

/-! ## who a bot is -/

structure BotIdentity where
  botId : Int
  username : Option String
  deriving DecidableEq, Repr

/-- Who a bridge's bot is supposed to be; what is absent is not checked. -/
structure ExpectedBot where
  botId : Option Int := none
  username : Option String := none
  deriving DecidableEq, Repr

/-- A user name without its sign, in lower case. -/
def bare (username : String) : List Char :=
  (username.toList.dropWhile (· = '@')).map Char.toLower

def shown (username : Option String) : String := username.getD "None"

/-- `_mismatch`: why a token may not serve a bridge. -/
def mismatch (name : String) (actual : BotIdentity) (expected : ExpectedBot)
    (guardianBotId : Option Int) : Option String :=
  if guardianBotId = some actual.botId then
    some s!"bridge '{name}': ${name} would poll the guardian's own bot"
  else if expected.botId.any (· ≠ actual.botId) then
    some s!"bridge '{name}': the stored token is bot {actual.botId} (@{shown actual.username}), and this bridge is bot {expected.botId.getD 0}"
  else
    match expected.username with
    | none => none
    | some username =>
        if username ≠ "" && bare (actual.username.getD "") ≠ bare username then
          let got := if actual.username.getD "" = "" then toString actual.botId
            else shown actual.username
          some s!"bridge '{name}': the stored token is @{got}, and this bridge is @{String.ofList (bare username)}"
        else none

/-! ## the state -/

inductive Fault
  | registryError (text : String)
  | identityError (text : String)
  /-- Anything else. -/
  | raised (text : String)
  | cancelled
  deriving DecidableEq, Repr

structure ResolvedBridge where
  name : String
  maxChatId : Int
  tokenEnv : String
  /-- The bot factory takes its token. -/
  wellFormed : Bool := true
  deriving DecidableEq, Repr

structure LiveBridge where
  name : String
  maxChatId : Int
  identity : BotIdentity
  /-- Which call brought it up. -/
  owner : Nat
  /-- What that call was told of its bot. -/
  expected : Option ExpectedBot
  deriving DecidableEq, Repr

/-- The tasks that a runner knows of. -/
structure BotRunner where
  task : Option Nat := none
  worker : Option Nat := none
  deriving DecidableEq, Repr

inductive Kind
  | poll
  | intake
  deriving DecidableEq, Repr

inductive Phase
  | running
  /-- Cancelled, and not over yet. -/
  | cancelled
  | over
  deriving DecidableEq, Repr

/-- A task of a runner, which is known by its bridge. -/
structure Job where
  live : Nat
  kind : Kind
  phase : Phase
  deriving DecidableEq, Repr

inductive Program
  | add (bridge : ResolvedBridge) (start : Bool) (expected : Option ExpectedBot)
  | remove (name : String)
  | close
  deriving DecidableEq, Repr

/-- Where a call waits, and the names that it has yet to remove. -/
inductive Stage
  | addLock (ticket : Nat)
  | getMe
  /-- The session of a bot that is not taken is closed. -/
  | refuse (fault : Fault)
  /-- `publish_bridge_menu`, for the bridge registered. -/
  | menu (live : Nat)
  | removeLock (ticket : Nat) (name : String) (rest : List String)
  /-- The runner's tasks are awaited, and then its handlers and its session. -/
  | stopPoll (live job : Nat) (rest : List String)
  | stopIntake (live job : Nat) (rest : List String)
  | stopSession (live : Nat) (rest : List String)
  | returned
  | raised (fault : Fault)
  deriving DecidableEq, Repr

structure Call where
  program : Program
  stage : Stage
  deriving DecidableEq, Repr

structure Maps where
  byName : Dict String Nat := .empty
  byBotId : Dict Int Nat := .empty
  byMaxChat : Dict Int Nat := .empty

namespace Maps

def register (m : Maps) (live : LiveBridge) (i : Nat) : Maps where
  byName := m.byName.insert live.name i
  byBotId := m.byBotId.insert live.identity.botId i
  byMaxChat := m.byMaxChat.insert live.maxChatId i

def pop (m : Maps) (name : String) (live : LiveBridge) : Maps where
  byName := m.byName.erase name
  byBotId := m.byBotId.erase live.identity.botId
  byMaxChat := m.byMaxChat.erase live.maxChatId

end Maps

structure Config where
  guardianBotId : Option Int := none
  /-- Whether updates go through an inbox, and so a runner has an intake task. -/
  inbox : Bool := true
  deriving DecidableEq, Repr

structure State where
  lock : Lock := {}
  /-- Numbers the waits for the lock. -/
  ticket : Nat := 0
  maps : Maps := {}
  /-- All bridges that ever came up, and the runner of each. -/
  lives : List LiveBridge := []
  runners : List BotRunner := []
  jobs : List Job := []
  calls : List Call := []

/-- What `getMe` comes to. -/
inductive Answer
  | me (identity : BotIdentity)
  | unauthorized
  | failed (text : String)
  | cancelled
  deriving DecidableEq, Repr

/-- What any other await comes to. -/
inductive Outcome
  | done
  | raised (text : String)
  | cancelled
  deriving DecidableEq, Repr

inductive Event
  | call (program : Program)
  /-- The wait for the lock is over. -/
  | turn (call : Nat)
  /-- Cancelled while it waits for the lock. -/
  | cancel (call : Nat)
  | answer (call : Nat) (answer : Answer)
  | goOn (call : Nat) (outcome : Outcome)
  /-- The intake task does not come to its end in time, and is cancelled. -/
  | timeout (call : Nat)
  /-- A task of a runner ends: by itself, or because it was cancelled. -/
  | ends (job : Nat)
  deriving DecidableEq, Repr

namespace State

def setStage (s : State) (n : Nat) (c : Call) (stage : Stage) : State :=
  { s with calls := s.calls.set n { c with stage } }

def release (s : State) : State := { s with lock := s.lock.release }

def nameOf (s : State) (i : Nat) : String := (s.lives[i]?).elim "" (·.name)

/-- The task, unless it is over. -/
def unended (s : State) (job : Option Nat) : Option (Nat × Job) :=
  job.bind fun j => (s.jobs[j]?).bind fun job => if job.phase = .over then none else some (j, job)

def cancelJob (s : State) (j : Nat) (job : Job) : State :=
  { s with jobs := s.jobs.set j { job with phase := .cancelled } }

def setRunner (s : State) (i : Nat) (runner : BotRunner) : State :=
  { s with runners := s.runners.set i runner }

/-! ## `remove` and `close` -/

/-- `stop`, from where the polling task is over. -/
def stopIntake (s : State) (n : Nat) (c : Call) (i : Nat) (runner : BotRunner)
    (rest : List String) : State :=
  let forgot := s.setRunner i { runner with worker := none }
  match s.unended runner.worker with
  | some (j, _) => forgot.setStage n c (.stopIntake i j rest)
  | none => forgot.setStage n c (.stopSession i rest)

/-- `stop`. -/
def stop (s : State) (n : Nat) (c : Call) (i : Nat) (runner : BotRunner) (rest : List String) :
    State :=
  match s.unended runner.task with
  | some (j, job) =>
      ((s.setRunner i { runner with task := none }).cancelJob j job).setStage n c
        (.stopPoll i j rest)
  | none => s.stopIntake n c i { runner with task := none } rest

/-- The block under the lock: which bridge it takes out of the maps. -/
def dropped (s : State) (name : String) : Option (Nat × LiveBridge × BotRunner) :=
  (s.maps.byName.get? name).bind fun i => (s.lives[i]?).bind fun live =>
    (s.runners[i]?).map fun runner => (i, live, runner)

/-- The names are removed one after the other. -/
def remove (s : State) (n : Nat) (c : Call) : List String → State
  | [] => s.setStage n c .returned
  | name :: rest =>
      match s.lock.acquire s.ticket with
      | (lock, false) =>
          { s with lock, ticket := s.ticket + 1 }.setStage n c (.removeLock s.ticket name rest)
      | (lock, true) =>
          match s.dropped name with
          | none => ({ s with lock }.release).remove n c rest
          | some (i, live, runner) =>
              ({ s with lock, maps := s.maps.pop name live }.release).stop n c i runner rest

/-- The lock is taken by a call that waited for it. -/
def removeLocked (s : State) (n : Nat) (c : Call) (name : String) (rest : List String) : State :=
  match s.dropped name with
  | none => s.release.remove n c rest
  | some (i, live, runner) =>
      ({ s with maps := s.maps.pop name live }.release).stop n c i runner rest

/-! ## `add` -/

def fail (s : State) (n : Nat) (c : Call) (fault : Fault) : State :=
  s.release.setStage n c (.raised fault)

/-- Up to `getMe`. -/
def addLocked (s : State) (n : Nat) (c : Call) (bridge : ResolvedBridge) : State :=
  if (s.maps.byName.get? bridge.name).isSome then
    s.fail n c (.registryError s!"bridge '{bridge.name}' is already running")
  else
    match s.maps.byMaxChat.get? bridge.maxChatId with
    | some i => s.fail n c (.registryError
        s!"bridge '{bridge.name}' and '{s.nameOf i}' both claim MAX chat {bridge.maxChatId} — one bot maps to exactly one dialog")
    | none =>
        if bridge.wellFormed then s.setStage n c .getMe else s.fail n c (.raised "Token is invalid!")

/-- Why a bot that answered is not taken. -/
def refusal (cfg : Config) (s : State) (bridge : ResolvedBridge) (identity : BotIdentity)
    (expected : Option ExpectedBot) : Option Fault :=
  match expected with
  | some expected =>
      ((mismatch bridge.name identity expected cfg.guardianBotId).map .identityError).or
        (taken identity)
  | none =>
      if cfg.guardianBotId = some identity.botId then
        some (.identityError s!"bridge '{bridge.name}': ${bridge.tokenEnv} is the guardian's own token")
      else taken identity
where
  taken (identity : BotIdentity) : Option Fault :=
    (s.maps.byBotId.get? identity.botId).map fun i => .registryError
      s!"bridges '{bridge.name}' and '{s.nameOf i}' use the same Telegram bot (@{shown identity.username}) — give each contact its own bot"

/-- `getMe` has come back. -/
def addAnswered (cfg : Config) (s : State) (n : Nat) (c : Call) (bridge : ResolvedBridge)
    (expected : Option ExpectedBot) : Answer → State
  | .cancelled => s.fail n c .cancelled
  | .unauthorized => s.setStage n c (.refuse (.registryError
      s!"bridge '{bridge.name}': ${bridge.tokenEnv} is not a valid bot token"))
  | .failed text => s.setStage n c (.refuse (.registryError
      s!"bridge '{bridge.name}': cannot reach Telegram ({text})"))
  | .me identity =>
      match refusal cfg s bridge identity expected with
      | some fault => s.setStage n c (.refuse fault)
      | none =>
          let live : LiveBridge :=
            { name := bridge.name, maxChatId := bridge.maxChatId, identity, owner := n, expected }
          ({ s with
            maps := s.maps.register live s.lives.length
            lives := s.lives ++ [live]
            runners := s.runners ++ [({} : BotRunner)] }.release).setStage n c (.menu s.lives.length)

/-- `BotRunner.start`. -/
def startRunner (cfg : Config) (s : State) (i : Nat) (runner : BotRunner) : State :=
  if (s.unended runner.task).isSome then s
  else if cfg.inbox then
    { s with
      runners := s.runners.set i ⟨some s.jobs.length, some (s.jobs.length + 1)⟩
      jobs := s.jobs ++ [⟨i, .poll, .running⟩] ++ [⟨i, .intake, .running⟩] }
  else
    { s with
      runners := s.runners.set i { runner with task := some s.jobs.length }
      jobs := s.jobs ++ [⟨i, .poll, .running⟩] }

/-! ## the steps -/

def call (s : State) (program : Program) : State :=
  let n := s.calls.length
  -- until the first await it has no stage that anybody sees
  let c : Call := ⟨program, .returned⟩
  let s := { s with calls := s.calls ++ [c] }
  match program with
  | .add bridge _ _ =>
      match s.lock.acquire s.ticket with
      | (lock, false) => { s with lock, ticket := s.ticket + 1 }.setStage n c (.addLock s.ticket)
      | (lock, true) => { s with lock }.addLocked n c bridge
  | .remove name => s.remove n c [name]
  | .close => s.remove n c s.maps.byName.keys

def turn (s : State) (n : Nat) (c : Call) : Option State :=
  match c.stage, c.program with
  | .addLock ticket, .add bridge _ _ =>
      (s.lock.turn ticket).map fun
        | (lock, true) => { s with lock }.addLocked n c bridge
        | (lock, false) => { s with lock }.setStage n c (.raised .cancelled)
  | .removeLock ticket name rest, _ =>
      (s.lock.turn ticket).map fun
        | (lock, true) => { s with lock }.removeLocked n c name rest
        | (lock, false) => { s with lock }.setStage n c (.raised .cancelled)
  | _, _ => none

def cancel (s : State) (c : Call) : Option State :=
  match c.stage with
  | .addLock ticket | .removeLock ticket _ _ => some { s with lock := s.lock.cancel ticket }
  | _ => none

def answer (cfg : Config) (s : State) (n : Nat) (c : Call) (answer : Answer) : Option State :=
  match c.stage, c.program with
  | .getMe, .add bridge _ expected => some (s.addAnswered cfg n c bridge expected answer)
  | _, _ => none

def isOver (s : State) (j : Nat) : Bool := (s.jobs[j]?).any (·.phase = .over)

def goOn (cfg : Config) (s : State) (n : Nat) (c : Call) (outcome : Outcome) : Option State :=
  match c.stage with
  | .refuse fault => some (s.fail n c (match outcome with
      | .done => fault
      | .raised text => .raised text
      | .cancelled => .cancelled))
  | .menu i =>
      match outcome, c.program with
      | .cancelled, _ => some (s.setStage n c (.raised .cancelled))
      -- what is raised otherwise is only logged
      | _, .add _ true _ => (s.runners[i]?).map fun runner =>
          (s.startRunner cfg i runner).setStage n c .returned
      | _, _ => some (s.setStage n c .returned)
  | .stopPoll i j rest =>
      -- a cancellation is swallowed while the task is awaited
      if s.isOver j then (s.runners[i]?).map fun runner => s.stopIntake n c i runner rest else none
  | .stopIntake i j rest => if s.isOver j then some (s.setStage n c (.stopSession i rest)) else none
  | .stopSession _ rest =>
      match outcome with
      | .done => some (s.remove n c rest)
      | .raised text => some (s.setStage n c (.raised (.raised text)))
      | .cancelled => some (s.setStage n c (.raised .cancelled))
  | _ => none

def timeout (s : State) (c : Call) : Option State :=
  match c.stage with
  | .stopIntake _ j _ => (s.unended (some j)).map fun (j, job) => s.cancelJob j job
  | _ => none

def ends (s : State) (j : Nat) : Option State :=
  (s.unended (some j)).map fun (j, job) =>
    { s with jobs := s.jobs.set j { job with phase := .over } }

def step (cfg : Config) (s : State) : Event → Option State
  | .call program => some (s.call program)
  | .turn n => (s.calls[n]?).bind (s.turn n)
  | .cancel n => (s.calls[n]?).bind s.cancel
  | .answer n a => (s.calls[n]?).bind fun c => s.answer cfg n c a
  | .goOn n outcome => (s.calls[n]?).bind fun c => s.goOn cfg n c outcome
  | .timeout n => (s.calls[n]?).bind s.timeout
  | .ends j => s.ends j

end State

def system (cfg : Config) : Run.Sys State Event := ⟨{}, State.step cfg⟩

end Telemax.Telegram.Registry
