import Telemax.Lib.Script
import Telemax.Lib.Trim
import Telemax.Onboarding.State
import Telemax.Routing.TextChunks

/-!
# Telemax.Onboarding.Flow

`MaxOnboarding` and the gateway that answers MAX's login prompts from the chat.
What the owner does, and a login attempt, are programs over what they await; all
that they do in between is done at once.

PyMax is inside `connect`: it puts prompts, and returns or raises, and a
cancellation it lets through.  An attempt stays inside for any number of rounds.
-/

namespace Telemax.Onboarding

open Script

inductive Question
  | code
  | password
  deriving DecidableEq, Repr

/-- The step of a prompt. -/
def Question.step : Question → Step
  | .code => .waitingForCode
  | .password => .waitingFor2fa

inductive Screen
  | welcome
  | resumeOffer
  | timezoneOffer
  | timezoneUndetectable
  | askMaxPhone
  | offerTelegramPhone (masked : String)
  | sendingCode
  | askCode (again : Bool)
  | askPassword (again : Bool) (hint : Option String)
  | validating
  | loginFailed (error : String)
  | saving
  | launchFailed (error : String)
  | starting
  | ready (timezone : Option String)
  | cancelled
  deriving DecidableEq, Repr

/-! ## the gateway -/

inductive Future
  | open
  | result (value : String)
  | abandoned
  | cancelled
  deriving DecidableEq, Repr

/-- `value.strip()`. -/
def strip (value : String) : String := String.ofList (Trim.trim isSpace value.toList)

structure Gateway where
  /-- The last future it has made. -/
  future : Option Future := none
  /-- `_pending` is that future. -/
  pending : Bool := false
  /-- `_question`. -/
  question : Option Question := none
  attempts : Question → Nat := fun _ => 0

namespace Gateway

/-- `submit`: hand an answer to whoever is waiting. -/
def submit (g : Gateway) (value : String) : Bool × Gateway :=
  if g.pending && g.future = some .open then
    (true, { g with pending := false, question := none, future := some (.result (strip value)) })
  else (false, { g with pending := false, question := none })

/-- `abandon`. -/
def abandon (g : Gateway) : Gateway :=
  if g.pending && g.future = some .open then
    { g with pending := false, question := none, future := some .abandoned }
  else { g with pending := false, question := none }

/-- The beginning of `_collect`. -/
def ask (g : Gateway) (question : Question) : Gateway where
  attempts := Function.update g.attempts question (g.attempts question + 1)
  future := some .open
  pending := true
  question := some question

/-- Whoever waits for the future gives it up. -/
def drop (g : Gateway) : Gateway :=
  if g.future = some .open then { g with future := some .cancelled } else g

end Gateway

/-! ## what is awaited, and what is not -/

inductive Fault
  | cancelled
  /-- `AuthAbandoned`. -/
  | abandoned
  | raised (text : String)
  deriving DecidableEq, Repr

/-- What an exception says. -/
def Fault.text : Fault → String
  | .cancelled => "CancelledError"
  | .abandoned => "cancelled"
  | .raised text => text

/-- What PyMax does next. -/
inductive Connecting
  | prompt (question : Question) (hint : Option String)
  | returns
  | raises (f : Fault)
  deriving DecidableEq, Repr

inductive Await
  /-- A task that has been created begins at the next turn of the event loop. -/
  | scheduled
  | show (screen : Screen)
  | attempt (task : Nat)
  | connect (phone : String)
  /-- `wait_for(pending, timeout)`. -/
  | wait (gateway : Nat)
  | persist (phone : String)
  | launch
  | writeTimezone (name : String)
  deriving DecidableEq, Repr

/-- A wait that times out has no value. -/
abbrev Await.Reply : Await → Type
  | .connect _ => Connecting
  | .wait _ => Option String
  | _ => Unit

/-- What is done without an await. -/
inductive Sync
  /-- `self._store.load()`. -/
  | load
  /-- `self._store.update(…)`. -/
  | update (changes : Changes)
  /-- `self._gateway`. -/
  | gateway
  | submit (gateway : Nat) (text : String)
  /-- `_collect` up to the screen that `_on_prompt` shows. -/
  | ask (gateway : Nat) (question : Question)
  /-- The question is taken back. -/
  | close (gateway : Nat)
  /-- `_abandon_attempt` up to its await. -/
  | abandonAttempt
  /-- A new gateway, which is `self._gateway` from now on. -/
  | openGateway
  /-- `self._attempt = asyncio.create_task(self._login(phone, gateway))`. -/
  | createTask (phone : String) (gateway : Nat)
  /-- `self._gateway = None`, at the end of an attempt. -/
  | clearGateway (gateway : Nat)
  | timezone
  | setTimezone (name : String)
  | telegramPhone
  deriving DecidableEq, Repr

abbrev Sync.Answer : Sync → Type
  | .load => OnboardingRecord
  | .gateway => Option Nat
  | .submit .. => Bool
  | .ask .. => Nat
  | .abandonAttempt => Option Nat
  | .openGateway => Nat
  | .timezone => Option String
  | .telegramPhone => Option String
  | _ => Unit

inductive Op
  | await (a : Await)
  | sync (x : Sync)

abbrev Op.Answer : Op → Type
  | .await a => Except Fault a.Reply
  | .sync x => x.Answer

abbrev Prog := Script Op.Answer Fault

def await (a : Await) : Prog a.Reply := do
  let r : Except Fault a.Reply ← query (Op.await a)
  orThrow id r

def sync (x : Sync) : Prog x.Answer := query (Op.sync x)

structure Config where
  normalizePhone : String → Option String
  maskPhone : String → String
  isKnownTimezone : String → Bool
  /-- There is a `timezone_writer`. -/
  writes : Bool

/-- How a round of a task ends. -/
inductive Next
  | ended
  | connecting (phone : String) (gateway : Nat)
  deriving DecidableEq, Repr

/-! ## the bridge comes up -/

def finish : Prog Unit := do
  sync (.update { step := some .startingBridge })
  await (.show .starting)
  let up ← tryCatch
    (do
      await .launch
      return true)
    fun
      | .cancelled => throw .cancelled
      | error => do
          await (.show (.launchFailed error.text))
          return false
  if up then do
    sync (.update { stage := some .bridgeRunning, step := some .completed })
    await (.show (.ready (← sync .timezone)))
  else return ()

/-! ## an attempt -/

def Question.screen (attempt : Nat) (hint : Option String) : Question → Screen
  | .code => .askCode (decide (1 < attempt))
  | .password => .askPassword (decide (1 < attempt)) hint

/-- `_collect`, through `_on_prompt`. -/
def collect (gateway : Nat) (question : Question) (hint : Option String) : Prog String := do
  let attempt ← sync (.ask gateway question)
  await (.show (question.screen attempt hint))
  match ← await (.wait gateway) with
  | some value => return value
  | none => do
      sync (.close gateway)
      throw .abandoned

/-- One turn inside `connect`: how it ends, or none where it goes on.  What a prompt raises PyMax
gets, and does with it what it will; a cancellation goes through. -/
def inside (phone : String) (gateway : Nat) : Prog (Option (Except Fault Unit)) :=
  tryCatch
    (do
      match ← await (.connect phone) with
      | .returns => return some (.ok ())
      | .raises f => return some (.error f)
      | .prompt question hint =>
          tryCatch
            (do
              let _ ← collect gateway question hint
              return none)
            fun
              | .cancelled => throw .cancelled
              | _ => return none)
    fun f => return some (.error f)

/-- `_login` from the end of `connect` on. -/
def connected (phone : String) (gateway : Nat) : Except Fault Unit → Prog Unit
  | .error .cancelled => do
      sync (.clearGateway gateway)
      throw .cancelled
  | .error .abandoned => sync (.clearGateway gateway)
  | .error (.raised text) =>
      ensuring
        (do
          sync (.update { step := some .waitingForPhone })
          await (.show (.loginFailed text)))
        (sync (.clearGateway gateway))
  | .ok () => do
      sync (.clearGateway gateway)
      sync (.update { stage := some .maxSessionValid, step := some .saving })
      await (.show .saving)
      let saved ← tryCatch
        (do
          await (.persist phone)
          return true)
        fun
          | .cancelled => throw .cancelled
          | error => do
              await (.show (.launchFailed error.text))
              return false
      if saved then finish else return ()

/-- `_login`, one round after the other. -/
def Next.round : Next → Prog Next
  | .ended => return .ended
  | .connecting phone gateway => do
      match ← inside phone gateway with
      | none => return .connecting phone gateway
      | some result => do
          connected phone gateway result
          return .ended

def login (phone : String) (gateway : Nat) : Prog Next := do
  await .scheduled
  return .connecting phone gateway

/-! ## what the owner does -/

/-- `_abandon_attempt`. -/
def abandonAttempt : Prog Unit := do
  match ← sync .abandonAttempt with
  | some task => tryCatch (await (.attempt task)) fun _ => return ()
  | none => return ()

/-- `_start_login`. -/
def startLogin (phone : String) : Prog Unit := do
  let gateway ← sync .openGateway
  await (.show .sendingCode)
  sync (.createTask phone gateway)

section

variable (cfg : Config)

/-- `_ask_for_a_number`. -/
def askForANumber : Prog Unit := do
  match ← sync .telegramPhone with
  | none => do
      sync (.update { stage := some .maxOnboardingPending, step := some .waitingForPhone })
      await (.show .askMaxPhone)
  | some existing => do
      sync (.update { stage := some .maxOnboardingPending, step := some .waitingForPhoneChoice })
      await (.show (.offerTelegramPhone (cfg.maskPhone existing)))

/-- `_ask_timezone`. -/
def askTimezone : Prog Unit := do
  let record ← sync .load
  if record.stage ≠ .bridgeRunning then
    sync (.update { stage := some .maxOnboardingPending, step := some .waitingForTimezone })
  else sync (.update { step := some .waitingForTimezone })
  await (.show .timezoneOffer)

def offer : Prog Unit := do
  let record ← sync .load
  match ← sync .timezone with
  | none => askTimezone
  | some timezone =>
      if record.stage = .bridgeRunning then await (.show (.ready (some timezone)))
      else if record.step ∈ [Step.waitingForPhone, .waitingForCode, .waitingFor2fa] then
        await (.show .resumeOffer)
      else await (.show .welcome)

/-- `begin`, and `retry`. -/
def begin : Prog Unit := do
  abandonAttempt
  match ← sync .timezone with
  | none => askTimezone
  | some _ => askForANumber cfg

/-- The writer, where there is one: has it written the name? -/
def writeTimezone (name : String) : Prog Bool :=
  if !cfg.writes then return true
  else
    tryCatch
      (do
        await (.writeTimezone name)
        return true)
      fun
        | .cancelled => throw .cancelled
        | error => do
            await (.show (.launchFailed error.text))
            return false

def setTimezone (name : String) : Prog Unit := do
  if !cfg.isKnownTimezone name then await (.show .timezoneUndetectable)
  else
    if ← writeTimezone cfg name then do
      sync (.setTimezone name)
      let record ← sync .load
      if record.stage = .bridgeRunning then await (.show (.ready (some name)))
      else askForANumber cfg
    else return ()

def useTelegramPhone : Prog Unit := do
  match cfg.normalizePhone ((← sync .telegramPhone).getD "") with
  | none => do
      sync (.update { step := some .waitingForPhone })
      await (.show .askMaxPhone)
  | some phone => do
      sync (.update { maxPhoneMode := some "same" })
      startLogin phone

def askOtherPhone : Prog Unit := do
  sync (.update { step := some .waitingForPhone, maxPhoneMode := some "other" })
  await (.show .askMaxPhone)

def cancel : Prog Unit := do
  abandonAttempt
  sync (.update { step := some .idle })
  await (.show .cancelled)

/-- `_submit_phone`. -/
def submitPhone (text : String) : Prog Unit :=
  match cfg.normalizePhone text with
  | none => await (.show .askMaxPhone)
  | some phone => startLogin phone

/-- `submit`: route a message from the owner. -/
def submit (text : String) : Prog Unit := do
  let record ← sync .load
  if record.step = .waitingForPhone then submitPhone cfg text
  else if record.step = .waitingForCode || record.step = .waitingFor2fa then
    match ← sync .gateway with
    | none => await (.show (.loginFailed "Попытка входа прервалась."))
    | some gateway =>
        if ← sync (.submit gateway text) then do
          sync (.update { step := some .validating })
          await (.show .validating)
        else return ()
  else return ()

end

inductive Action
  | offer
  | begin
  | retry
  | setTimezone (name : String)
  | useTelegramPhone
  | askOtherPhone
  | cancel
  | retryLaunch
  | submit (text : String)
  | shutdown
  deriving DecidableEq, Repr

def Action.body (cfg : Config) : Action → Prog Unit
  | .offer => Onboarding.offer
  | .begin | .retry => Onboarding.begin cfg
  | .setTimezone name => Onboarding.setTimezone cfg name
  | .useTelegramPhone => Onboarding.useTelegramPhone cfg
  | .askOtherPhone => Onboarding.askOtherPhone
  | .cancel => Onboarding.cancel
  | .retryLaunch => finish
  | .submit text => Onboarding.submit cfg text
  | .shutdown => abandonAttempt

def Action.program (cfg : Config) (a : Action) : Prog Next := do
  a.body cfg
  return .ended

end Telemax.Onboarding
