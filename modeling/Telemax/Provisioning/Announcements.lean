import Telemax.Lib.Run
import Telemax.Provisioning.PendingInbox

/-!
# Telemax.Provisioning.Announcements

The question about one contact and its answer.  `asked_at` is the revision that
the buttons of the announcement carry: `note_asked` raises it and then reads it
back, `consume_announcement` spends it, `set_state` may overwrite it.  Each call
reads the clock, hands its statement over and waits; statements are executed one
after the other, and other calls go on in between.
-/

namespace Telemax.Provisioning.Announcements

open Telemax.Provisioning.Pending (Contact ContactState Disk)

/-- The calls of the repository about this contact. -/
inductive Call
  | noteSeen (maxUserId : Option Int) (displayName : Option String)
  | noteAsked
  | setState (state : ContactState)
  | consumeAnnouncement (revision : Int)
  deriving DecidableEq, Repr

inductive Stage
  /-- Its write is on its way, with what the clock showed. -/
  | writing (stamp : Int)
  /-- The write has been executed: how many rows it changed. -/
  | written (changed : Nat)
  /-- Its `get` is on its way. -/
  | reading
  | read (contact : Option Contact)
  | ended
  deriving DecidableEq, Repr

structure Task where
  call : Call
  stage : Stage
  deriving DecidableEq, Repr

/-- `int(contact.asked_at or 0) if contact else 0`. -/
def revisionOf (contact : Option Contact) : Int := (contact.bind (·.askedAt)).getD 0

/-- What is to be seen of the calls from outside, in the order of the statements. -/
inductive Note
  /-- The call put its question with this revision; with none where nobody is stored. -/
  | asked (call : Nat) (revision : Option Int)
  /-- This revision was spent. -/
  | consumed (revision : Int)
  /-- `asked_at` after a write. -/
  | mark (askedAt : Int)
  deriving DecidableEq, Repr

/-- `consume_announcement`'s compare-and-swap. -/
def consume (d : Disk) (chat revision stamp : Int) : Disk × Nat :=
  if (d.contacts chat).bind (·.askedAt) = some revision then
    (d.updateContact chat fun c => { c with askedAt := some (max stamp (c.askedAt.getD 0 + 1)) }, 1)
  else (d, 0)

/-- The statement of a call that writes. -/
def Call.write (call : Call) (chat stamp : Int) (d : Disk) : Disk × Nat :=
  match call with
  | .noteSeen user name => (d.noteSeen chat user name, 1)
  | .noteAsked => ((d.perform stamp (.markAsked chat)).elim d (·.2), stored)
  | .setState state => ((d.perform stamp (.setState chat state)).elim d (·.2), stored)
  | .consumeAnnouncement revision => consume d chat revision stamp
where
  /-- The statement has a row to change. -/
  stored : Nat := if (d.contacts chat).isSome then 1 else 0

structure State where
  disk : Disk
  /-- All calls so far, each known by its place. -/
  tasks : List Task := []
  notes : List Note := []
  /-- What the calls of `note_asked` returned. -/
  revisions : List (Nat × Int) := []
  /-- `note_asked` has been called for a contact that is not stored. -/
  blank : Bool := false

inductive Event
  | call (c : Call) (stamp : Int)
  /-- The statement the task waits for is executed. -/
  | execute (task : Nat)
  /-- The task is told. -/
  | resume (task : Nat)
  /-- The tables change, but for this contact's row. -/
  | elsewhere (disk : Disk)
  | restart

namespace State

/-- `asked_at`; nothing counts as zero, as in the statements. -/
def askedAt (chat : Int) (s : State) : Int :=
  revisionOf (s.disk.contacts chat)

/-- What a write of a call leaves to be seen. -/
def noted (n : Nat) (call : Call) (changed : Nat) (askedAt : Int) : List Note :=
  match call with
  | .noteAsked =>
      if changed = 1 then [.asked n (some askedAt), .mark askedAt] else [.asked n none]
  | .consumeAnnouncement revision => if changed = 1 then [.consumed revision, .mark askedAt] else []
  | .noteSeen .. | .setState _ => [.mark askedAt]

def setStage (s : State) (n : Nat) (t : Task) (stage : Stage) : State :=
  { s with tasks := s.tasks.set n { t with stage } }

/-- A statement is executed. -/
def execute (chat : Int) (s : State) (n : Nat) (t : Task) : Option State :=
  match t.stage with
  | .writing stamp =>
      let (disk, changed) := t.call.write chat stamp s.disk
      let after := { s.setStage n t (.written changed) with disk }
      some { after with
        notes := s.notes ++ noted n t.call changed (after.askedAt chat)
        blank := s.blank || (t.call == .noteAsked && changed == 0) }
  | .reading => some (s.setStage n t (.read (s.disk.contacts chat)))
  | .written _ | .read _ | .ended => none

/-- A task goes on: to its `get`, or to its end. -/
def resume (s : State) (n : Nat) (t : Task) : Option State :=
  match t.stage, t.call with
  | .written _, .noteSeen .. | .written _, .noteAsked => some (s.setStage n t .reading)
  | .written _, _ => some (s.setStage n t .ended)
  | .read contact, .noteAsked =>
      some { s.setStage n t .ended with revisions := s.revisions ++ [(n, revisionOf contact)] }
  | .read _, _ => some (s.setStage n t .ended)
  | _, _ => none

def step (chat : Int) (s : State) : Event → Option State
  | .call c stamp => some { s with tasks := s.tasks ++ [⟨c, .writing stamp⟩] }
  | .execute n => s.tasks[n]?.bind (s.execute chat n)
  | .resume n => s.tasks[n]?.bind (s.resume n)
  | .elsewhere disk =>
      if disk.contacts chat = s.disk.contacts chat then some { s with disk } else none
  | .restart => some { s with tasks := s.tasks.map fun t => { t with stage := .ended } }

end State

/-- The service over the tables an earlier one left. -/
def system (disk : Disk) (chat : Int) : Run.Sys State Event := ⟨{ disk }, State.step chat⟩

/-! ## what is promised -/

/-- `note_asked` has raised the revision and not read it back yet. -/
def Task.between (t : Task) : Bool :=
  t.call == .noteAsked && match t.stage with
    | .written _ | .reading => true
    | _ => false

/-- A question is put only while no other is between its two statements, and at most
once to a contact nobody stored; `set_state` does not set `asked_at` back. -/
def State.guarded (chat : Int) (s : State) : Event → Bool
  | .execute n =>
      match s.tasks[n]? with
      | some ⟨.noteAsked, .writing _⟩ =>
          !s.tasks.any Task.between && ((s.disk.contacts chat).isSome || !s.blank)
      | some ⟨.setState .asked, .writing stamp⟩ =>
          (s.disk.contacts chat).isNone || decide (s.askedAt chat ≤ stamp)
      | _ => true
  | _ => true

/-- One announcement, one answer: in the order of the statements, as far as they
have come. -/
structure OneAnswer (s : State) : Prop where
  /-- No two calls of `note_asked` return the same revision. -/
  revisions : (s.revisions.map (·.2)).Nodup
  /-- What a call returns is what was stored once its question had been put; zero, if nothing
  was. -/
  stored : ∀ {n r}, (n, r) ∈ s.revisions →
    ∃ q, Note.asked n q ∈ s.notes ∧ ([Note.asked n q, .mark r].Sublist s.notes ∨ r = 0)
  /-- A newer question returns a newer revision. -/
  inOrder : ∀ {m n r r' p q}, (m, r) ∈ s.revisions → (n, r') ∈ s.revisions →
    [Note.asked m p, .asked n q].Sublist s.notes → r < r'
  /-- Once a newer question has been put, what an older one returned is refused. -/
  superseded : ∀ {m n r p q}, (m, r) ∈ s.revisions →
    [Note.asked m p, .asked n q].Sublist s.notes → ¬[Note.asked n q, .consumed r].Sublist s.notes
  never_back : ∀ {a b}, [Note.mark a, .mark b].Sublist s.notes → a ≤ b
  once : ∀ {r}, ¬[Note.consumed r, .consumed r].Sublist s.notes
  /-- A newer question has a newer revision, and what is older is refused from then on. -/
  newer : ∀ {m n r q}, [Note.asked m (some r), .asked n (some q)].Sublist s.notes → r < q
  asked : ∀ {n r q}, [Note.asked n (some q), .consumed r].Sublist s.notes → q ≤ r
  /-- Once an answer has been taken, every older revision is refused. -/
  answered : ∀ {r q}, [Note.consumed q, .consumed r].Sublist s.notes → q < r

end Telemax.Provisioning.Announcements
