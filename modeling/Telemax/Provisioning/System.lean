import Telemax.Lib.Run
import Telemax.Provisioning.Batch

/-!
# Telemax.Provisioning.System

Any number of batch runs and reconciler attempts over one journal, one
coordinator and one gateway.  The tasks are scheduled as an event loop does: a
task goes on alone until it awaits something, then any other may.

`served` is a ghost: which task brought a contact to `HEALTHY`, as long as its
bridge has been alive ever since.  `calls` are the calls that would undo a
bridge, each with what the contact's bridge was when the call was made.
-/

namespace Telemax.Provisioning

/-- A call that would undo a bridge. -/
structure Made where
  task : Nat
  call : Call
  chat : Int
  /-- The task that had brought the contact up, its bridge being alive. -/
  served : Option Nat
  deriving DecidableEq, Repr

structure State where
  journal : ProvisioningJournal
  slots : ContactKey → Slot
  /-- What `gateway.is_healthy` would answer. -/
  alive : Int → Bool
  tasks : List (Prog Unit)
  /-- The task whose turn it is; the others await something. -/
  running : Option Nat
  served : Int → Option Nat
  calls : List Made

/-- What the owner does to one entry from the screens: `retry`, `disconnect` and
`delete_bot`, `abandon_attempt`. -/
inductive OwnerOp
  | retry
  | forget
  | abandon
  deriving DecidableEq, Repr

inductive Event
  /-- A selection is recorded. -/
  | begin (entries : List JournalEntry)
  | owner (op : OwnerOp) (chat : Int)
  /-- `ProvisioningBatch(…).run()`. -/
  | run (cfg : Config)
  /-- `ProvisioningReconciler(…).run()`: a task for each unfinished attempt. -/
  | reconcile (cfg : Config)
  /-- The task whose turn it is goes on by one operation. -/
  | go
  /-- The call a task awaits comes back. -/
  | answer (task : Nat) (a : ∀ c : Call, Except Fault c.Reply)
  /-- A task is the first in line for a contact that has been given back. -/
  | turn (task : Nat)
  /-- A task that stands in line is cancelled. -/
  | cancel (task : Nat)
  /-- The bridge of a contact goes away, or comes back. -/
  | dies (chat : Int)
  | recovers (chat : Int)

namespace State

def start : State where
  journal := .empty
  slots := fun _ => {}
  alive := fun _ => false
  tasks := []
  running := none
  served := fun _ => none
  calls := []

def setSlot (s : State) (key : ContactKey) (slot : Slot) : State :=
  { s with slots := fun k => if k = key then slot else s.slots k }

/-- A task goes on with `x`. -/
def goesOn (s : State) (t : Nat) (x : Prog Unit) : State :=
  { s with tasks := s.tasks.set t x, running := some t }

/-- The journal after a `note` by a task.  Only `_verify` writes `HEALTHY`. -/
def noted (s : State) (t : Nat) (chat : Int) (c : Changes) (j : ProvisioningJournal) : State :=
  { s with
    journal := j
    served := fun k =>
      if k = chat ∧ c.state = some .healthy ∧ s.alive chat then some t else s.served k }

/-- A task arrives at an await: a call that would undo a bridge is written down. -/
def arrive (s : State) (t : Nat) (c : Call) : State :=
  { s with
    running := none
    calls := match c.undoes with
      | some chat => s.calls ++ [⟨t, c, chat, s.served chat⟩]
      | none => s.calls }

/-- One operation of the task whose turn it is. -/
def go (s : State) (t : Nat) : Prog Unit → State
  | .done _ | .fail _ => { s with running := none }
  | .ask (.walking chatIds) k =>
      s.goesOn t (k (match chatIds with
        | none => s.journal.entries
        | some chats => s.journal.selected chats))
  | .ask (.get chat) k => s.goesOn t (k (s.journal.find chat))
  | .ask (.note _ chat c) k =>
      match s.journal.note chat c with
      | none => s.goesOn t (k (.error (.keyError chat)))
      | some j => (s.noted t chat c j).goesOn t (k (.ok ()))
  | .ask (.claim key _) k =>
      match (s.slots key).claim t with
      | (slot, some how) => (s.setSlot key slot).goesOn t (k how)
      | (slot, none) => { s.setSlot key slot with running := none }
  | .ask (.leave key how) k => (s.setSlot key ((s.slots key).leave how)).goesOn t (k ())
  | .ask (.await c) _ => s.arrive t c

/-- A call comes back with what it can: `is_healthy` answers what is, or raises. -/
def answers (s : State) (c : Call) (r : Except Fault c.Reply) : Bool :=
  match c, r with
  | .isHealthy chat, .ok healthy => healthy = s.alive chat
  | _, _ => true

def owner (s : State) (chat : Int) : OwnerOp → Option State
  | .retry => do
      let entry ← s.journal.get chat
      guard (entry.state ≠ .failedPermanent)
      let j ← s.journal.note chat
        { state := some .pending, error := some none, failure := some none }
      return { s with journal := j }
  | .forget => some { s with journal := s.journal.forget chat }
  | .abandon => do
      let j ← s.journal.note chat { state := some .abandoned }
      return { s with journal := j }

/-- The program a task is at, with the others all awaiting something. -/
def awaiting (s : State) (t : Nat) : Option (Prog Unit) :=
  if s.running = none then s.tasks[t]? else none

def step (s : State) : Event → Option State
  | .begin entries =>
      if s.running = none then some { s with journal := s.journal.begin entries } else none
  | .owner op chat => if s.running = none then s.owner chat op else none
  | .run cfg =>
      if s.running = none then
        some { s with
          tasks := s.tasks ++ [do let _ : List JournalEntry ← ProvisioningBatch.run cfg]
          running := some s.tasks.length }
      else none
  | .reconcile cfg =>
      if s.running = none then
        some { s with
          tasks := s.tasks ++ (ProvisioningReconciler.unfinished s.journal).map fun entry => do
            let _ : Verdict ← ProvisioningReconciler.reconcile cfg entry }
      else none
  | .go => do
      let t ← s.running
      let x ← s.tasks[t]?
      return s.go t x
  | .answer t a =>
      match s.awaiting t with
      | some (.ask (.await c) k) =>
          if s.answers c (a c) then some (s.goesOn t (k (a c))) else none
      | _ => none
  | .turn t =>
      match s.awaiting t with
      | some (.ask (.claim key _) k) =>
          match (s.slots key).turn t with
          | some (slot, how) => some ((s.setSlot key slot).goesOn t (k how))
          | none => none
      | _ => none
  | .cancel t =>
      match s.awaiting t with
      | some (.ask (.claim key _) k) =>
          some ((s.setSlot key ((s.slots key).quit t)).goesOn t (k .cancelled))
      | _ => none
  | .dies chat =>
      some { s with
        alive := fun k => if k = chat then false else s.alive k
        served := fun k => if k = chat then none else s.served k }
  | .recovers chat => some { s with alive := fun k => if k = chat then true else s.alive k }

end State

def sys : Run.Sys State Event := ⟨.start, State.step⟩

/-- Does the journal, read now, say that a contact is served by a bridge that is alive? -/
def State.serving (s : State) (chat : Int) : Bool :=
  (s.journal.get chat).any (·.finished) && s.alive chat

/-- The program of the task whose turn it is. -/
def State.current (s : State) : Option (Nat × Prog Unit) :=
  s.running.bind fun t => s.tasks[t]?.map fun x => (t, x)

/-- The contact a run takes up with this step, and the key it locks for it. -/
def State.takesUp (s : State) : Event → Option (ContactKey × Int)
  | .go =>
      match s.current with
      | some (t, .ask (.claim key chat) _) =>
          if ((s.slots key).claim t).2.isSome then some (key, chat) else none
      | _ => none
  | .turn t =>
      match s.awaiting t with
      | some (.ask (.claim key chat) _) =>
          if ((s.slots key).turn t).any (·.2 = .taken) then some (key, chat) else none
      | _ => none
  | _ => none

/-- The contact whose entry is written over without being read again: by the reconciler's verdict
on a name that is not ours, and by the owner. -/
def State.overwrites (s : State) : Event → Option Int
  | .owner _ chat => some chat
  | .go =>
      match s.current with
      | some (_, .ask (.note .reconcile chat _) _) => some chat
      | _ => none
  | _ => none

/-- A contact is taken up, or written over, by the journal as it stands: it is not being served
then, and it is locked under its one key. -/
def State.upToDate (keyOf : Int → ContactKey) (s : State) (e : Event) : Bool :=
  (s.takesUp e).all (fun x => x.1 = keyOf x.2 && !s.serving x.2) &&
    (s.overwrites e).all (!s.serving ·)

/-- No call that would undo a bridge was made for a contact that another run had brought up and
whose bridge was alive. -/
def State.Undisturbed (s : State) : Prop :=
  ∀ m ∈ s.calls, ∀ other, m.served = some other → other = m.task

instance (s : State) : Decidable s.Undisturbed :=
  inferInstanceAs (Decidable (∀ m ∈ s.calls, ∀ other, m.served = some other → other = m.task))

end Telemax.Provisioning
