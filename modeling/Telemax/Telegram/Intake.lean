import Telemax.Lib.Script

/-!
# Telemax.Telegram.Intake

One polling loop of a bot and the durable intake underneath it: `BotRunner` over
`TelegramInboxRepository`.  An update is stored before the offset moves, and a
separate pass hands the stored updates to the dispatcher, oldest first.

The two loops are programs over what they await; a round of a loop ends with
what the next one is.  The offset in memory and the stop flag are asked for and
set without an await.
-/

namespace Telemax.Telegram.Intake

open Script

inductive InboxState
  | received
  | leased
  | done
  | failed
  deriving DecidableEq, Repr

/-- An update as Telegram sends it. -/
structure Update where
  updateId : Int
  /-- `storable_update`, where it does not raise. -/
  storable : Option String
  deriving DecidableEq, Repr

/-- A stored update as the intake holds it. -/
structure InboxUpdate where
  id : Nat
  updateId : Int
  payload : String
  attempts : Nat
  deriving DecidableEq, Repr

inductive Fault
  | cancelled
  | raised (text : String)
  deriving DecidableEq, Repr

/-- How `getUpdates` fails. -/
inductive PollError
  | retryAfter (seconds : Nat)
  | unauthorized
  /-- `TelegramNetworkError`, `OSError` or anything else. -/
  | failed
  deriving DecidableEq, Repr

inductive Await
  /-- A task that has been created begins at the next turn of the event loop. -/
  | scheduled
  | offset
  | getUpdates (offset : Option Int)
  | sleep (seconds : Nat)
  | store (updateId : Int) (payload : String)
  | rememberOffset (next : Int)
  | claimOpen (limit : Nat)
  | feed (update : InboxUpdate)
  | markDone (id : Nat)
  | markFailed (id : Nat) (error : String)
  | release (id : Nat) (error : String)
  /-- `wait_for(work.wait(), IDLE_SECONDS)`. -/
  | idle

abbrev Await.Reply : Await → Type
  | .offset => Option Int
  | .getUpdates _ => Except PollError (List Update)
  | .claimOpen _ => List InboxUpdate
  | _ => Unit

inductive Op
  | await (a : Await)
  | stopping
  | current
  | move (next : Int)

abbrev Op.Answer : Op → Type
  | .await a => Except Fault a.Reply
  | .stopping => Bool
  | .current => Option Int
  | .move _ => Unit

abbrev Prog := Script Op.Answer Fault

def await (a : Await) : Prog a.Reply := do
  let r : Except Fault a.Reply ← query (Op.await a)
  orThrow id r

def stopping : Prog Bool := query Op.stopping

/-- `self._offset`. -/
def current : Prog (Option Int) := query Op.current

def move (next : Int) : Prog Unit := query (Op.move next)

structure Config where
  botId : Int
  /-- The runner was given a `bot_id`. -/
  explicit : Bool
  /-- Why a stored payload cannot be read back. -/
  unreadable : String → Option String

def INITIAL_BACKOFF_SECONDS : Nat := 1

def MAX_BACKOFF_SECONDS : Nat := 60

def MAX_INTAKE_ATTEMPTS : Nat := 5

/-- How a round ends. -/
inductive Next
  | ended
  | poll (backoff : Nat)
  | intake
  deriving DecidableEq, Repr

/-! ## polling -/

/-- `_resume_offset`. -/
def resumeOffset (cfg : Config) : Prog Unit :=
  if !cfg.explicit then return ()
  else
    tryCatch
      (do
        match ← await .offset with
        | some remembered => move remembered
        | none => return ())
      fun
        | .cancelled => throw .cancelled
        | .raised _ => return ()

def highest (first : Update) (rest : List Update) : Int :=
  (rest.map (·.updateId)).foldl max first.updateId

def storeAll : List Update → Prog Unit
  | [] => return ()
  | u :: rest =>
      match u.storable with
      | none => throw (.raised "an update cannot be stored")
      | some payload => do
          await (.store u.updateId payload)
          storeAll rest

/-- `_take`: store every update, then acknowledge them all with one offset move. -/
def take (first : Update) (rest : List Update) : Prog Unit := do
  storeAll (first :: rest)
  move (highest first rest + 1)
  await (.rememberOffset (highest first rest + 1))

def pollRound (backoff : Nat) : Prog Next := do
  if ← stopping then return .ended
  else
    match ← await (.getUpdates (← current)) with
    | .error (.retryAfter seconds) =>
        await (.sleep seconds)
        return .poll backoff
    | .error .unauthorized => return .ended
    | .error .failed =>
        await (.sleep backoff)
        return .poll (min (backoff * 2) MAX_BACKOFF_SECONDS)
    | .ok [] => return .poll INITIAL_BACKOFF_SECONDS
    | .ok (first :: rest) =>
        tryCatch
          (do
            take first rest
            return .poll INITIAL_BACKOFF_SECONDS)
          fun
            | .cancelled => throw .cancelled
            | .raised _ => do
                await (.sleep INITIAL_BACKOFF_SECONDS)
                return .poll (min (INITIAL_BACKOFF_SECONDS * 2) MAX_BACKOFF_SECONDS)

def poll (cfg : Config) : Prog Next := do
  await .scheduled
  resumeOffset cfg
  return .poll INITIAL_BACKOFF_SECONDS

/-! ## the intake -/

/-- The dispatcher handled the update; one that it did not is put back, or parked. -/
def feedUpdate (stored : InboxUpdate) : Prog Bool :=
  tryCatch
    (do
      await (.feed stored)
      return true)
    fun
      | .cancelled => do
          await (.release stored.id "cancelled during shutdown")
          throw .cancelled
      | .raised message =>
          if MAX_INTAKE_ATTEMPTS ≤ stored.attempts + 1 then do
            await (.markFailed stored.id message)
            return false
          else do
            await (.release stored.id message)
            return false

def handleStored (cfg : Config) (stored : InboxUpdate) : Prog Unit :=
  match cfg.unreadable stored.payload with
  | some error => await (.markFailed stored.id ("unreadable: " ++ error))
  | none => do
      if ← feedUpdate stored then await (.markDone stored.id)
      else return ()

def handleAll (cfg : Config) : List InboxUpdate → Prog Unit
  | [] => return ()
  | stored :: rest => do
      handleStored cfg stored
      handleAll cfg rest

/-- The open updates, or none where the inbox cannot be read. -/
def claim : Prog (List InboxUpdate) :=
  tryCatch (await (.claimOpen 10)) fun
    | .cancelled => throw .cancelled
    | .raised _ => return []

def drainInbox (cfg : Config) : Prog Bool := do
  let pending ← claim
  handleAll cfg pending
  return !pending.isEmpty

/-- One turn of `_process_inbox`. -/
def intakeRound (cfg : Config) : Prog Next := do
  let drained ← drainInbox cfg
  if (← stopping) && !drained then return .ended
  else if drained then return .intake
  else
    await .idle
    return .intake

def intake : Prog Next := do
  await .scheduled
  return .intake

def Next.round (cfg : Config) : Next → Prog Next
  | .ended => return .ended
  | .poll backoff => pollRound backoff
  | .intake => intakeRound cfg

end Telemax.Telegram.Intake
