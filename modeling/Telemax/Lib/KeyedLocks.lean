import Telemax.Lib.AsyncLock
import Telemax.Lib.Run
import Telemax.Lib.Tasks

/-!
# Telemax.Lib.KeyedLocks

One lock for each key, made when the first caller asks for it and dropped from the
map when the last one leaves, which a count of its users tells.  What a caller does
on arrival is a policy: it may walk straight in, stand in line only to see the
present holder out, or take the lock.

Every call is a task of the event loop inside a block, or on its way there; the
calls of one task are nested.  A step is what runs from one await to the next.
-/

namespace KeyedLocks

open AsyncLock

/-- What the map holds. -/
structure Slot where
  lock : Lock := {}
  users : Nat := 0
  /-- Which task has the lock. -/
  holder : Option Nat := none
  deriving DecidableEq, Repr

/-- What a caller does on arrival. -/
inductive Arrival
  | enter
  /-- Take the lock and give it straight back. -/
  | look
  | acquire
  deriving DecidableEq, Repr

/-- How a caller came into its block. -/
inductive How
  /-- With the lock. -/
  | taken
  /-- Straight away. -/
  | nested
  /-- After it had the lock and gave it back. -/
  | looked
  deriving DecidableEq, Repr

/-- It is told to do the work. -/
def How.works (how : How) : Bool := how ≠ .looked

inductive Stage
  | waiting (looks : Bool)
  | inside (how : How)
  /-- It is over; how its block was entered, if it was. -/
  | ended (how : Option How)
  deriving DecidableEq, Repr

structure Call (κ : Type) where
  task : Nat
  key : κ
  /-- The object it found in the map, or put there. -/
  slot : Nat
  stage : Stage
  /-- The calls of others that were inside a block that works for this key, or queued
  to enter one, when it was made. -/
  ahead : List Nat
  /-- Its task was inside such a block itself. -/
  own : Bool
  deriving DecidableEq, Repr

variable {κ : Type}

namespace Call

def live (c : Call κ) : Bool :=
  match c.stage with
  | .ended _ => false
  | .waiting _ | .inside _ => true

def waits (c : Call κ) : Bool :=
  match c.stage with
  | .waiting _ => true
  | .inside _ | .ended _ => false

def works (c : Call κ) : Bool :=
  match c.stage with
  | .inside how => how.works
  | .waiting _ | .ended _ => false

end Call

structure Policy where
  arrive : Option Nat → Bool → Nat → Arrival
  /-- Whether an unused slot is dropped, given that its lock is locked or not. -/
  drops : Bool → Bool

structure State (κ : Type) where
  slots : κ → Option Nat
  heap : List Slot
  calls : List (Call κ)

inductive Event (κ : Type)
  | call (task : Nat) (key : κ)
  /-- Its wait for the lock is over. -/
  | turn (call : Nat)
  /-- Its task is cancelled while it waits. -/
  | cancel (call : Nat)
  /-- The block ends, in whatever way. -/
  | leave (call : Nat)

namespace State

variable [DecidableEq κ]

/-- It is queued to enter a block that works. -/
def queued (s : State κ) (n : Nat) (c : Call κ) : Bool :=
  c.stage = .waiting false && (s.heap[c.slot]?).any fun slot => slot.lock.queued n

/-- The calls that pass a test. -/
def those (s : State κ) (p : Nat → Call κ → Bool) : List Nat :=
  (List.range s.calls.length).filter fun n => (s.calls[n]?).any (p n)

def ahead (s : State κ) (task : Nat) (key : κ) : List Nat :=
  s.those fun n c => c.task ≠ task && c.key = key && (c.works || s.queued n c)

def own (s : State κ) (task : Nat) (key : κ) : Bool :=
  s.calls.any fun c => c.task = task && c.key = key && c.works

/-- The entry of the map, made where there is none. -/
def entry (s : State κ) (key : κ) : Nat × State κ :=
  match s.slots key with
  | some o => (o, s)
  | none =>
      (s.heap.length,
        { s with slots := Function.update s.slots key (some s.heap.length), heap := s.heap ++ [{}] })

/-- From the count to the first await. -/
def arrive (policy : Policy) (slot : Slot) (task id : Nat) : Slot × Stage :=
  match policy.arrive slot.holder slot.lock.locked task with
  | .enter => (slot, .inside .nested)
  | .look =>
      match slot.lock.acquire id with
      | (lock, true) => ({ slot with lock := lock.release }, .inside .looked)
      | (lock, false) => ({ slot with lock }, .waiting true)
  | .acquire =>
      match slot.lock.acquire id with
      | (lock, true) => ({ slot with lock, holder := some task }, .inside .taken)
      | (lock, false) => ({ slot with lock }, .waiting false)

/-- A task that waits does nothing else. -/
def call (policy : Policy) (s : State κ) (task : Nat) (key : κ) : Option (State κ) :=
  if s.calls.any fun c => c.task = task && c.waits then none
  else
    let (o, made) := s.entry key
    (made.heap[o]?).map fun slot =>
      let (slot, stage) := arrive policy { slot with users := slot.users + 1 } task s.calls.length
      { made with
        heap := made.heap.set o slot
        calls := s.calls ++
          [{ task, key, slot := o, stage, ahead := s.ahead task key, own := s.own task key }] }

def settle (s : State κ) (n : Nat) (c : Call κ) (slot : Slot) (stage : Stage) : State κ :=
  { s with heap := s.heap.set c.slot slot, calls := s.calls.set n { c with stage } }

/-- The last one to leave takes the slot out of the map. -/
def finish (policy : Policy) (s : State κ) (n : Nat) (c : Call κ) (slot : Slot)
    (how : Option How) : State κ :=
  let slot := { slot with users := slot.users - 1 }
  let after := s.settle n c slot (.ended how)
  if slot.users = 0 && policy.drops slot.lock.locked then
    { after with slots := Function.update s.slots c.key none }
  else after

def turn (policy : Policy) (s : State κ) (n : Nat) (c : Call κ) (slot : Slot) : Option (State κ) :=
  match c.stage with
  | .waiting looks =>
      (slot.lock.turn n).map fun
        | (lock, true) =>
            if looks then s.settle n c { slot with lock := lock.release } (.inside .looked)
            else s.settle n c { slot with lock, holder := some c.task } (.inside .taken)
        | (lock, false) => s.finish policy n c { slot with lock } none
  | .inside _ | .ended _ => none

def cancel (s : State κ) (n : Nat) (c : Call κ) (slot : Slot) : Option (State κ) :=
  match c.stage with
  | .waiting looks => some (s.settle n c { slot with lock := slot.lock.cancel n } (.waiting looks))
  | .inside _ | .ended _ => none

/-- The calls of a task end from the innermost on. -/
def innermost (s : State κ) (n : Nat) (c : Call κ) : Bool :=
  (s.those fun m d => n < m && d.task = c.task && d.live).isEmpty

def leave (policy : Policy) (s : State κ) (n : Nat) (c : Call κ) (slot : Slot) :
    Option (State κ) :=
  match c.stage with
  | .inside how =>
      if !s.innermost n c then none
      else if how = .taken then
        some (s.finish policy n c { slot with lock := slot.lock.release, holder := none } (some how))
      else some (s.finish policy n c slot (some how))
  | .waiting _ | .ended _ => none

/-- A call goes on, with the slot it holds on to. -/
def goOn (s : State κ) (n : Nat) (f : Call κ → Slot → Option (State κ)) : Option (State κ) :=
  (s.calls[n]?).bind fun c => (s.heap[c.slot]?).bind (f c)

def step (policy : Policy) (s : State κ) : Event κ → Option (State κ)
  | .call task key => s.call policy task key
  | .turn n => s.goOn n (s.turn policy n)
  | .cancel n => s.goOn n (s.cancel n)
  | .leave n => s.goOn n (s.leave policy n)

end State

def system [DecidableEq κ] (policy : Policy) : Run.Sys (State κ) (Event κ) :=
  ⟨⟨fun _ => none, [], []⟩, State.step policy⟩

end KeyedLocks
