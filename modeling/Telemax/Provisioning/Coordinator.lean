import Mathlib.Data.Int.Bitwise

/-!
# Telemax.Provisioning.Coordinator

One slot per contact: who walks it, and who waits for its lock.  A lock that is
given back is not free yet: the first in line is woken and takes it at its next
turn, and whoever comes in between finds it open but has to stand in line.
-/

namespace Telemax.Provisioning

/-- `u:{id}`, or `c:{id}` for a chat that is no personal dialog. -/
inductive ContactKey
  | user (id : Int)
  | chat (id : Int)
  deriving DecidableEq, Repr

def ContactKey.forUser (maxUserId : Int) : ContactKey := .user maxUserId

def ContactKey.forChat (maxChatId : Int) (ownUserId : Option Int) : ContactKey :=
  match ownUserId with
  | some own => if 0 < maxChatId then .forUser (Int.xor own maxChatId) else .chat maxChatId
  | none => .chat maxChatId

/-- How a `claim` comes out. -/
inductive Claimed
  /-- The lock was taken here. -/
  | taken
  /-- The task holds it already. -/
  | already
  /-- Somebody else was walking this contact, and is done. -/
  | lost
  | cancelled
  deriving DecidableEq, Repr

/-- Whoever takes the lock is its holder before the next await, so `locked()` is that there is
one.  Those who wait stand in line, each with whether it wants the contact or only the outcome. -/
structure Slot where
  holder : Option Nat := none
  waiting : List (Nat × Bool) := []
  deriving DecidableEq, Repr

namespace Slot

/-- `claim` up to its first await: how it comes out, or `none` for a place in the line. -/
def claim (s : Slot) (here : Nat) : Slot × Option Claimed :=
  if s.holder = some here then (s, some .already)
  else if s.holder.isSome then ({ s with waiting := s.waiting ++ [(here, false)] }, none)
  else if s.waiting = [] then ({ s with holder := some here }, some .taken)
  else ({ s with waiting := s.waiting ++ [(here, true)] }, none)

/-- The first in line has its turn once the lock is given back. -/
def turn (s : Slot) (here : Nat) : Option (Slot × Claimed) :=
  match s.holder, s.waiting with
  | none, (task, wants) :: rest =>
      if task = here then
        if wants then some (⟨some here, rest⟩, .taken) else some (⟨none, rest⟩, .lost)
      else none
  | _, _ => none

/-- A task that waits is cancelled. -/
def quit (s : Slot) (here : Nat) : Slot :=
  { s with waiting := s.waiting.filter (·.1 ≠ here) }

/-- The end of the block: only who took the lock gives it back. -/
def leave (s : Slot) (how : Claimed) : Slot :=
  if how = .taken then { s with holder := none } else s

/-- Who comes in at once holds the lock, having found it free or its own. -/
theorem claim_some {s slot : Slot} {here : Nat} {how : Claimed}
    (h : s.claim here = (slot, some how)) :
    slot.holder = some here ∧
      ((how = .taken ∧ s.holder = none) ∨ (how = .already ∧ s.holder = some here)) := by
  simp only [claim] at h
  split at h
  · next hmine =>
      obtain ⟨rfl, hhow⟩ := Prod.mk.inj h
      obtain rfl := Option.some.inj hhow
      exact ⟨hmine, .inr ⟨rfl, hmine⟩⟩
  · split at h
    · cases h
    · next hfree =>
        split at h
        · obtain ⟨rfl, hhow⟩ := Prod.mk.inj h
          obtain rfl := Option.some.inj hhow
          exact ⟨rfl, .inl ⟨rfl, Option.not_isSome_iff_eq_none.mp hfree⟩⟩
        · cases h

/-- Who stands in line changes nothing for the holder. -/
theorem claim_none {s slot : Slot} {here : Nat} (h : s.claim here = (slot, none)) :
    slot.holder = s.holder := by
  simp only [claim] at h
  split at h
  · cases h
  · split at h
    · exact (Prod.mk.inj h).1 ▸ rfl
    · split at h
      · cases h
      · exact (Prod.mk.inj h).1 ▸ rfl

theorem turn_some {s slot : Slot} {here : Nat} {how : Claimed}
    (h : s.turn here = some (slot, how)) :
    s.holder = none ∧
      ((how = .taken ∧ slot.holder = some here) ∨ (how = .lost ∧ slot.holder = none)) := by
  obtain ⟨holder, waiting⟩ := s
  rcases holder with _ | holder
  · rcases waiting with _ | ⟨⟨task, wants⟩, rest⟩
    · cases h
    · simp only [turn] at h
      refine ⟨rfl, ?_⟩
      split at h
      · split at h
        · obtain ⟨rfl, rfl⟩ := Prod.mk.inj (Option.some.inj h)
          exact .inl ⟨rfl, rfl⟩
        · obtain ⟨rfl, rfl⟩ := Prod.mk.inj (Option.some.inj h)
          exact .inr ⟨rfl, rfl⟩
      · cases h
  · cases h

end Slot

end Telemax.Provisioning
