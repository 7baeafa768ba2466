import Telemax.Lib.Run
import Telemax.Lib.Typestate
import Telemax.Onboarding.Flow

/-!
# Telemax.Onboarding.System

One onboarding flow over its store and any number of other stores: what the owner
does, in any order and at once, what MAX's login asks and how it ends, screens
that fail, waits that time out, and what anybody else writes into the file.

A task runs from one await to the next.  What was handed to which gateway, whose
gateway an attempt took away at its end, and every stage the file has had, are
written down.
-/

namespace Telemax.Onboarding

open Script

/-! ## the tasks -/

inductive Kind
  | action
  /-- `_login`, with its gateway. -/
  | attempt (gateway : Nat)
  deriving DecidableEq, Repr

/-- What has become of a task. -/
structure Book where
  /-- The login it is starting, or inside of. -/
  inside : Option Nat := none
  /-- The prompt that waits for its answer. -/
  asks : Option Question := none
  /-- A cancellation has come to it. -/
  cut : Bool := false
  deriving DecidableEq, Repr

/-- Where the question has been answered. -/
def Book.next (b : Book) : (op : Op) → op.Answer → Book
  | .await _, .error .cancelled => { b with asks := none, cut := true }
  | .await _, .error _ => { b with asks := none }
  | .await (.wait _), .ok _ => { b with asks := none }
  | .sync .openGateway, gateway => { b with inside := some gateway }
  | .sync (.createTask ..), _ => { b with inside := none }
  | .sync (.clearGateway _), _ => { b with inside := none, asks := none }
  | .sync (.ask _ question), _ => { b with asks := some question }
  | _, _ => b

structure Task where
  kind : Kind
  prog : Prog Next
  book : Book := {}
  /-- `cancel()` has been called on it. -/
  cancelled : Bool := false

namespace Task

def isOver (t : Task) : Bool :=
  match t.prog with
  | .ask _ _ | .done (.connecting ..) => false
  | .done .ended | .fail _ => true

/-- The login it is starting, or inside of. -/
def inside (t : Task) : Option Nat := if t.isOver then none else t.book.inside

/-- It waits for this gateway's future. -/
def waits (t : Task) (gateway : Nat) : Bool :=
  match t.prog with
  | .ask (.await (.wait g)) _ => g = gateway
  | _ => false

end Task

structure State where
  stores : Stores := {}
  /-- `self._gateway`. -/
  gateway : Option Nat := none
  /-- `self._attempt`. -/
  attempt : Option Nat := none
  gateways : Nat → Gateway := fun _ => {}
  /-- How many gateways have been made. -/
  made : Nat := 0
  timezone : Option String := none
  phone : Option String := none
  tasks : List Task := []
  handed : List (Nat × String) := []
  /-- An attempt's gateway, and the one that was taken away at its end. -/
  disconnected : List (Nat × Nat) := []
  /-- The stages the file has had, the last one first. -/
  stages : List Stage := []

/-- The answers of the others. -/
inductive Reply
  | done
  | connecting (c : Connecting)
  deriving DecidableEq, Repr

inductive Event
  /-- The owner does something. -/
  | call (a : Action)
  | answer (task : Nat) (reply : Reply)
  /-- What a task awaits is raised instead. -/
  | fault (task : Nat) (f : Fault)
  /-- Nobody answers in time. -/
  | expire (gateway : Nat)
  /-- Somebody writes something else into the file. -/
  | unrelated (store : Nat) (changes : Changes)
  | look (store : Nat)
  /-- The configuration, and the number Telegram has. -/
  | surroundings (timezone phone : Option String)
  deriving DecidableEq, Repr

namespace State

variable (cfg : Config)

/-- The flow's store is the first one. -/
def update (s : State) (changes : Changes) : State :=
  let stores := s.stores.update 0 changes
  { s with stores, stages := stores.read.stage :: s.stages }

def atGateway (s : State) (gateway : Nat) (f : Gateway → Gateway) : State :=
  { s with gateways := Function.update s.gateways gateway (f (s.gateways gateway)) }

/-- `_abandon_attempt` up to its await: the attempt that is to be awaited. -/
def abandonAttempt (s : State) : Option Nat × State :=
  let abandoned : State :=
    match s.gateway with
    | some gateway => { s.atGateway gateway Gateway.abandon with gateway := none }
    | none => s
  match s.attempt with
  | some task =>
      if (s.tasks[task]?).all Task.isOver then (none, { abandoned with attempt := none })
      else
        (some task,
          { abandoned with
            attempt := none
            tasks := s.tasks.modify task fun t => { t with cancelled := true } })
  | none => (none, abandoned)

/-- What is done without an await. -/
def perform (s : State) : (x : Sync) → x.Answer × State
  | .load =>
      let r := s.stores.load 0
      (r.1, { s with stores := r.2 })
  | .update changes => ((), s.update changes)
  | .gateway => (s.gateway, s)
  | .submit gateway text =>
      let r := (s.gateways gateway).submit text
      (r.1,
        { s.atGateway gateway fun _ => r.2 with
          handed := if r.1 then (gateway, text) :: s.handed else s.handed })
  | .ask gateway question =>
      let s := s.atGateway gateway fun g => g.ask question
      ((s.gateways gateway).attempts question, s.update { step := some question.step })
  | .close gateway =>
      ((), s.atGateway gateway fun g => { g with pending := false, question := none })
  | .abandonAttempt => s.abandonAttempt
  | .openGateway =>
      (s.made,
        { s.atGateway s.made fun _ => {} with gateway := some s.made, made := s.made + 1 })
  | .createTask phone gateway =>
      ((),
        { s with
          attempt := some s.tasks.length
          tasks := s.tasks ++
            [{ kind := .attempt gateway, prog := login phone gateway,
               book := { inside := some gateway } }] })
  | .clearGateway gateway =>
      ((),
        { s with
          gateway := none
          disconnected := match s.gateway with
            | some other => if other = gateway then s.disconnected
                else (gateway, other) :: s.disconnected
            | none => s.disconnected })
  | .timezone => (s.timezone, s)
  | .setTimezone name => ((), { s with timezone := some name })
  | .telegramPhone => (s.phone, s)

/-- The task has come to this program, and this has become of it. -/
def goes (s : State) (n : Nat) (x : Prog Next) (f : Book → Book) : State :=
  { s with tasks := s.tasks.modify n fun t => { t with prog := x, book := f t.book } }

/-- The task of an action begins. -/
def begins (s : State) (a : Action) : State :=
  { s with tasks := s.tasks ++ [{ kind := .action, prog := a.program cfg }] }

/-- A task runs on to its next await. -/
def settle (n : Nat) : Prog Next → State → State
  | .ask (.sync x) k, s =>
      let r := s.perform x
      settle n (k r.1) (r.2.goes n (k r.1) fun b => b.next (.sync x) r.1)
  | .ask (.await _) _, s | .done _, s | .fail _, s => s

/-- A round that has ended is followed by the next one. -/
def restart (s : State) (n : Nat) : State :=
  match (s.tasks[n]?).map Task.prog with
  | some (.done (.connecting phone gateway)) =>
      let x := (Next.connecting phone gateway).round
      settle n x (s.goes n x id)
  | _ => s

/-- The task goes on with this program. -/
def runs (s : State) (n : Nat) (x : Prog Next) (f : Book → Book) : State :=
  (settle n x (s.goes n x f)).restart n

/-- What a reply says, where it answers. -/
def fit (s : State) : Reply → (a : Await) → Option a.Reply
  | .connecting c, .connect _ => some c
  | .done, .wait gateway =>
      match (s.gateways gateway).future with
      | some (.result value) => some (some value)
      | some .cancelled => some none
      | _ => none
  | .done, .attempt task => if (s.tasks[task]?).all Task.isOver then some () else none
  | .done, .scheduled | .done, .show _ | .done, .persist _ | .done, .launch
  | .done, .writeTimezone _ => some ()
  | _, _ => none

/-- Who waits for a future gives it up as something is raised. -/
def dropped (s : State) : Await → State
  | .wait gateway => s.atGateway gateway Gateway.drop
  | _ => s

def step (s : State) : Event → Option State
  | .call a => some ((s.begins cfg a).runs s.tasks.length (a.program cfg) id)
  | .answer n reply =>
      match s.tasks[n]? with
      | some t =>
          match t.prog with
          | .ask (.await a) k =>
              if t.cancelled then none
              else (s.fit reply a).map fun r => s.runs n (k (.ok r)) fun b => b.next (.await a) (.ok r)
          | _ => none
      | none => none
  | .fault n f =>
      match s.tasks[n]? with
      | some t =>
          match t.prog with
          | .ask (.await a) k =>
              if t.cancelled && f ≠ .cancelled then none
              else some ((s.dropped a).runs n (k (.error f)) fun b => b.next (.await a) (.error f))
          | _ => none
      | none => none
  | .expire gateway =>
      if s.tasks.any fun t => t.waits gateway then some (s.atGateway gateway Gateway.drop) else none
  | .unrelated store changes =>
      if changes.unrelated then
        some { s with
          stores := s.stores.update store changes
          stages := (s.stores.update store changes).read.stage :: s.stages }
      else none
  | .look store => some { s with stores := (s.stores.load store).2 }
  | .surroundings timezone phone => some { s with timezone, phone }

/-! ## what goes wrong where -/

/-- A login attempt has an unanswered prompt. -/
structure Unanswered (s : State) (n gateway : Nat) (question : Question) : Prop where
  task : ∃ t, s.tasks[n]? = some t ∧ t.isOver = false ∧ t.kind = .attempt gateway ∧
    t.book.asks = some question
  future : (s.gateways gateway).future = some .open

/-- Some attempt has an unanswered prompt. -/
def unanswered (s : State) : Bool :=
  s.tasks.any fun t => !t.isOver && t.book.asks.isSome &&
    match t.kind with
    | .attempt gateway => (s.gateways gateway).future = some .open
    | .action => false

/-- A login is being started, or an attempt is inside `connect`. -/
def loggingIn (s : State) : Bool := s.tasks.any fun t => t.inside.isSome

/-- A login is being started. -/
def starting (s : State) : Bool := s.tasks.any fun t => t.kind = .action && t.inside.isSome

/-- The stage may be written over the one in the file. -/
def overStage (s : State) : Option Stage → Bool
  | some .maxOnboardingPending =>
      s.stores.read.stage ≠ .maxSessionValid && s.stores.read.stage ≠ .bridgeRunning
  | some .maxSessionValid => s.stores.read.stage ≠ .bridgeRunning
  | _ => true

/-- Nothing goes wrong with this. -/
def may (s : State) : Sync → Bool
  | .update changes => !s.unanswered && s.overStage changes.stage
  | .ask .. => !s.unanswered
  | .openGateway => !s.loggingIn
  | .abandonAttempt => !s.starting
  | _ => true

/-- Nor with anything the task does up to its next await. -/
def settles (n : Nat) : Prog Next → State → Bool
  | .ask (.sync x) k, s =>
      s.may x &&
        let r := s.perform x
        settles n (k r.1) (r.2.goes n (k r.1) fun b => b.next (.sync x) r.1)
  | .ask (.await _) _, _ | .done _, _ | .fail _, _ => true

def restarts (s : State) (n : Nat) : Bool :=
  match (s.tasks[n]?).map Task.prog with
  | some (.done (.connecting phone gateway)) =>
      let x := (Next.connecting phone gateway).round
      settles n x (s.goes n x id)
  | _ => true

def carefully (s : State) (n : Nat) (x : Prog Next) (f : Book → Book) : Bool :=
  settles n x (s.goes n x f) && (settle n x (s.goes n x f)).restarts n

/-- The file is written while no prompt is unanswered and not over a later stage, and a login is
started, or abandoned, while no other is being started or is inside. -/
def careful (s : State) : Event → Bool
  | .call a => (s.begins cfg a).carefully s.tasks.length (a.program cfg) id
  | .answer n reply =>
      (s.tasks[n]?).all fun t =>
        match t.prog with
        | .ask (.await a) k =>
            (s.fit reply a).all fun r => s.carefully n (k (.ok r)) fun b => b.next (.await a) (.ok r)
        | _ => true
  | .fault n f =>
      (s.tasks[n]?).all fun t =>
        match t.prog with
        | .ask (.await a) k =>
            (s.dropped a).carefully n (k (.error f)) fun b => b.next (.await a) (.error f)
        | _ => true
  | .unrelated _ _ => !s.unanswered
  | _ => true

/-- The question that is waited on is not lost, and the stage does not go back. -/
structure Held (s : State) : Prop where
  /-- The stored step is the step of the prompt. -/
  step : ∀ n gateway question, s.Unanswered n gateway question →
    s.stores.read.step = question.step
  /-- The next text the owner submits is handed to that attempt, and starts no login. -/
  handed : ∀ n gateway question text s', s.Unanswered n gateway question →
    s.step cfg (.call (.submit text)) = some s' →
    s'.handed = (gateway, text) :: s.handed ∧ s'.made = s.made
  /-- The end of an attempt takes away no other's gateway. -/
  connected : s.disconnected = []
  /-- The stage never moves back. -/
  forward : s.stages.Pairwise (·.rank ≥ ·.rank)

end State

/-- The flow begins over this file. -/
def sys (cfg : Config) (file : Option OnboardingRecord) : Run.Sys State Event where
  start := { stores := { file }, stages := [(file.getD {}).stage] }
  step := State.step cfg

end Telemax.Onboarding
