import Telemax.Lib.Dict
import Telemax.Lib.Run
import Telemax.Lib.Tasks

/-!
# Telemax.OwnerUpdates.Dispatch

`OwnerUpdateDispatch`, for one message of one dialog: updates of it are written down,
read against the state that was last confirmed, and carried; drains finish what an
earlier call did not.  Everything from the read to the commit is under the message's
lock.

An update says what the message *is*, and its `pts` which version that is.  An await is
executed in one step and returns, or raises, in another one.
-/

namespace Telemax.OwnerUpdates

/-! ## what an update says -/

/-- An ordinary emoji, or a document in somebody's sticker pack. -/
inductive ReactionKind
  | emoji
  | custom
  deriving DecidableEq, Repr

/-- One of the owner's own reactions. -/
structure Chosen where
  kind : ReactionKind
  value : String
  deriving DecidableEq, Repr

/-- The one reaction MAX will show: the last the owner chose. -/
def representative (chosen : List Chosen) : Option Chosen := chosen.getLast?

structure Snapshot where
  fingerprint : String
  chosen : List Chosen
  /-- What an edit would carry, where the message is the owner's own. -/
  text : Option String
  deriving DecidableEq, Repr

/-! ## what is stored -/

/-- `OwnerMessageState`. -/
structure Stored where
  fingerprint : String
  chosen : List Chosen
  pts : Nat
  deriving DecidableEq, Repr

/-- `advance`: forward only. -/
def advance (stored : Option Stored) (pts : Nat) (snapshot : Snapshot) : Option Stored :=
  if stored.all (·.pts < pts) then some ⟨snapshot.fingerprint, snapshot.chosen, pts⟩
  else stored

/-- `seed`: only where there is no row. -/
def seed (stored : Option Stored) (fingerprint : String) (chosen : List Chosen) : Option Stored :=
  some (stored.getD ⟨fingerprint, chosen, 0⟩)

inductive RowState
  | opened
  | claimed
  | accounted
  deriving DecidableEq, Repr

/-- A row of `owner_update_inbox`. -/
structure Row where
  state : RowState := .opened
  attempts : Nat := 0
  nextAttemptAt : Int
  leaseExpiresAt : Option Int := none
  snapshot : Snapshot
  deriving DecidableEq, Repr

abbrev Inbox := Dict Nat Row

namespace Inbox

/-- A second insert of the same update does nothing. -/
def remember (inbox : Inbox) (pts : Nat) (snapshot : Snapshot) (now : Int) : Inbox :=
  match inbox.get? pts with
  | some _ => inbox
  | none => inbox.insert pts { nextAttemptAt := now, snapshot }

def due (row : Row) (now : Int) : Bool :=
  match row.state with
  | .opened => row.nextAttemptAt ≤ now
  | .claimed => row.leaseExpiresAt.any (· ≤ now)
  | .accounted => false

/-- The row is whose claims it, until the lease is over. -/
def claim (inbox : Inbox) (now lease : Int) (pts : Nat) : Inbox :=
  inbox.modify pts fun row => { row with state := .claimed, leaseExpiresAt := some (now + lease) }

/-- `reopen`. -/
def reopen (inbox : Inbox) (pts : Nat) (until_ : Int) : Inbox :=
  inbox.modify pts fun row =>
    if row.state = .accounted then row
    else { row with
      state := .opened, attempts := row.attempts + 1, leaseExpiresAt := none
      nextAttemptAt := until_ }

/-- The first statement of `account`: the text goes with the row. -/
def account (inbox : Inbox) (pts : Nat) : Inbox :=
  inbox.modify pts fun row =>
    { row with
      state := .accounted, leaseExpiresAt := none
      snapshot := { row.snapshot with text := none, chosen := [] } }

/-- The second one. -/
def drop (inbox : Inbox) (pts : Nat) : Inbox :=
  inbox.filter fun k row => !(k = pts && row.state = .accounted)

/-- `sweep_accounted`. -/
def sweep (inbox : Inbox) : Inbox := inbox.filter fun _ row => row.state ≠ .accounted

end Inbox

/-! ## the calls -/

/-- Where a call waits.  From `getting` to `advancing` it has the lock, and so it has while it
seeds. -/
inductive Stage
  | remembering
  | claiming
  | acquiring
  | getting
  | editing (previous : Stored) (text : String)
  | mapping (previous : Stored)
  | reacting (previous : Stored)
  | advancing (previous : Option Stored)
  | accounting
  | dropping
  | reopening
  /-- `seed_baseline`, which waits for the lock first. -/
  | baseline
  | seeding
  | ended
  deriving DecidableEq, Repr

def Stage.inside : Stage → Bool
  | .getting | .editing .. | .mapping _ | .reacting _ | .advancing _ | .seeding => true
  | _ => false

/-- What a version asks of MAX. -/
inductive Effect
  | edit (pts : Nat) (text : String)
  | reaction (pts : Nat) (chosen : Option Chosen)
  /-- A reaction to a message that has no place in MAX: counted, and not carried. -/
  | unnamed (pts : Nat)
  deriving DecidableEq, Repr

structure Call where
  stage : Stage
  pts : Nat := 0
  snapshot : Snapshot
  /-- What a drain has claimed besides. -/
  rest : List (Nat × Snapshot) := []
  /-- The await has been executed: where the call goes on. -/
  ready : Option Stage := none
  /-- What it has called for and not committed, newest first. -/
  carried : List Effect := []
  deriving DecidableEq, Repr

/-- What follows the reaction's half. -/
def afterReaction (previous : Stored) : Stage := .advancing (some previous)

/-- The owner's reaction moved as far as MAX can show it. -/
def Stored.moved (previous : Stored) (snapshot : Snapshot) : Bool :=
  representative previous.chosen ≠ representative snapshot.chosen

/-- What follows the edit's half. -/
def afterEdit (previous : Stored) (snapshot : Snapshot) : Stage :=
  if previous.moved snapshot then .mapping previous else afterReaction previous

/-- There is an edit to carry. -/
def Stored.edit (previous : Stored) (snapshot : Snapshot) : Option String :=
  if snapshot.fingerprint ≠ previous.fingerprint then snapshot.text else none

/-- `_read_decide_and_commit`, once the state has been read: a version already settled is
ignored, and from an update without a baseline nothing is derived. -/
def afterGet (read : Option Stored) (pts : Nat) (snapshot : Snapshot) : Stage :=
  match read with
  | none => .advancing none
  | some previous =>
      if pts ≤ previous.pts then .accounting
      else
        match previous.edit snapshot with
        | some text => .editing previous text
        | none => afterEdit previous snapshot

/-- A drain goes on to its next row. -/
def Call.goOn (c : Call) : Call :=
  match c.rest with
  | [] => { c with stage := .ended, ready := none }
  | (pts, snapshot) :: rest => { stage := .acquiring, pts, snapshot, rest }

/-- A version that was committed, and what it was read against. -/
structure Commit where
  previous : Option Stored
  pts : Nat
  snapshot : Snapshot
  deriving DecidableEq, Repr

/-- What is seen of the calls from outside. -/
inductive Entry
  | effect (effect : Effect)
  | commit (commit : Commit)
  deriving DecidableEq, Repr

structure State where
  stored : Option Stored := none
  inbox : Inbox := .empty
  /-- The call that has the lock. -/
  holder : Option Nat := none
  calls : List Call := []
  /-- Which updates were ever written down, and of which all was accounted for. -/
  remembered : List Nat := []
  accounted : List Nat := []
  /-- What was called for and what was committed, newest first. -/
  log : List Entry := []

inductive Event
  /-- `on_owner_update`. -/
  | update (pts : Nat)
  | drain
  /-- `seed_baseline`. -/
  | seed (fingerprint : String) (chosen : List Chosen)
  /-- The call is given the lock. -/
  | enter (call : Nat)
  /-- The await of the call is executed; for a claim, with the rows it finds due, and for the
  mapping, whether the message has one. -/
  | exec (call : Nat) (now : Int) (claimed : List Nat) (named : Bool)
  | resume (call : Nat)
  /-- The await raises, whether it has been executed or not. -/
  | fault (call : Nat) (cancelled : Bool)
  | crash
  | sweep
  deriving DecidableEq, Repr

/-- What every update says. -/
abbrev Updates := Nat → Snapshot

def RETRY_MS : Int := 30000

def LEASE_MS : Int := 60000

namespace State

def setCall (s : State) (n : Nat) (c : Call) : State := { s with calls := s.calls.set n c }

/-- The call goes on to a stage; leaving the section gives the lock back. -/
def go (s : State) (n : Nat) (c : Call) : State :=
  { s.setCall n c with
    holder := if s.holder = some n ∧ c.stage.inside = false then none else s.holder }

/-- The await calls for an effect, and the call goes on. -/
def call (s : State) (n : Nat) (c : Call) (effect : Effect) (stage : Stage) : State :=
  { s.setCall n { c with ready := some stage, carried := effect :: c.carried } with
    log := .effect effect :: s.log }

/-- One await. -/
def perform (s : State) (n : Nat) (c : Call) (now : Int) (claimed : List Nat) (named : Bool) :
    Option State :=
  let next (stage : Stage) : Call := { c with ready := some stage }
  match c.stage with
  | .remembering =>
      some { s.setCall n (next .acquiring) with
        inbox := s.inbox.remember c.pts c.snapshot now, remembered := c.pts :: s.remembered }
  | .claiming =>
      if claimed.Nodup ∧ ∀ pts ∈ claimed, (s.inbox.get? pts).any (Inbox.due · now) then
        let rows := claimed.filterMap fun pts =>
          (s.inbox.get? pts).map fun row => (pts, row.snapshot)
        some { s.setCall n { next .ended with rest := rows } with
          inbox := claimed.foldl (Inbox.claim · now LEASE_MS ·) s.inbox }
      else none
  | .getting => some (s.setCall n (next (afterGet s.stored c.pts c.snapshot)))
  | .editing previous text => some (s.call n c (.edit c.pts text) (afterEdit previous c.snapshot))
  | .mapping previous =>
      if named then some (s.setCall n (next (.reacting previous)))
      else some (s.call n c (.unnamed c.pts) (afterReaction previous))
  | .reacting previous =>
      some (s.call n c (.reaction c.pts (representative c.snapshot.chosen))
        (afterReaction previous))
  | .advancing previous =>
      let done := s.setCall n { next .accounting with carried := [] }
      if s.stored.all (·.pts < c.pts) then
        some { done with
          stored := advance s.stored c.pts c.snapshot
          log := .commit ⟨previous, c.pts, c.snapshot⟩ :: s.log }
      else some done
  | .accounting =>
      some { s.setCall n (next .dropping) with
        inbox := s.inbox.account c.pts, accounted := c.pts :: s.accounted }
  | .dropping => some { s.setCall n (next .ended) with inbox := s.inbox.drop c.pts }
  | .reopening =>
      some { s.setCall n { next .ended with rest := [] } with
        inbox := s.inbox.reopen c.pts (now + RETRY_MS) }
  | .seeding =>
      some { s.setCall n (next .ended) with
        stored := seed s.stored c.snapshot.fingerprint c.snapshot.chosen }
  | .acquiring | .baseline | .ended => none

/-- Where a call goes whose await has raised. -/
def failed (c : Call) (cancelled : Bool) : Stage :=
  match c.stage with
  | .acquiring | .getting | .editing .. | .mapping _ | .reacting _ | .advancing _ =>
      if cancelled then .ended else .reopening
  | _ => .ended

def step (updates : Updates) (s : State) : Event → Option State
  | .update pts =>
      some { s with calls := s.calls ++ [{ stage := .remembering, pts, snapshot := updates pts }] }
  | .drain => some { s with calls := s.calls ++ [{ stage := .claiming, snapshot := updates 0 }] }
  | .seed fingerprint chosen =>
      some { s with
        calls := s.calls ++ [{ stage := .baseline, snapshot := ⟨fingerprint, chosen, none⟩ }] }
  | .enter n =>
      match s.calls[n]? with
      | some c =>
          if s.holder.isNone && c.ready.isNone then
            match c.stage with
            | .acquiring => some { s.setCall n { c with stage := .getting } with holder := some n }
            | .baseline => some { s.setCall n { c with stage := .seeding } with holder := some n }
            | _ => none
          else none
      | none => none
  | .exec n now claimed named =>
      match s.calls[n]? with
      | some c => if c.ready.isNone then s.perform n c now claimed named else none
      | none => none
  | .resume n =>
      match s.calls[n]? with
      | some c =>
          c.ready.map fun stage =>
            s.go n (if stage = .ended then c.goOn else { c with stage, ready := none })
      | none => none
  | .fault n cancelled =>
      match s.calls[n]? with
      | some c =>
          if c.stage = .ended then none
          else some (s.go n { c with
            stage := failed c cancelled, ready := none, carried := [], rest := [] })
      | none => none
  | .crash => some { s with calls := [], holder := none }
  | .sweep => some { s with inbox := s.inbox.sweep }

end State

def sys (updates : Updates) : Run.Sys State Event where
  start := {}
  step := State.step updates

end Telemax.OwnerUpdates
