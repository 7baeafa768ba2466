import Mathlib.Data.List.Basic

/-!
# Telemax.Lib.AsyncLock

The lock of a cooperative event loop.  Who finds it open and nobody in line takes
it at once; everybody else stands in line with a future.  Giving the lock back
wakes the first in line, who takes it at its next turn, so in between the lock is
open and yet spoken for.  A waiter can be cancelled, also when it has been woken
already, and leaves the line at its next turn.

Waiters are known by numbers that grow, so the line is in order.
-/

namespace AsyncLock

inductive Future
  | pending
  | woken
  | cancelled
  /-- Woken first, and cancelled before its turn. -/
  | doomed
  deriving DecidableEq, Repr

/-- The lock has been given to it, whether it takes it or not. -/
def Future.awake : Future → Bool
  | .woken | .doomed => true
  | .pending | .cancelled => false

structure Waiter where
  id : Nat
  future : Future
  deriving DecidableEq, Repr

/-- The task of a waiter is cancelled. -/
def Waiter.cancel (w : Waiter) : Waiter :=
  { w with future := if w.future.awake then .doomed else .cancelled }

/-- It still wants the lock. -/
def Waiter.live (w : Waiter) : Bool := w.future = .pending || w.future = .woken

structure Lock where
  locked : Bool := false
  waiters : List Waiter := []
  deriving DecidableEq, Repr

namespace Lock

/-- The first in line is woken, unless its future is done. -/
def wakeFirst (l : Lock) : Lock :=
  match l.waiters with
  | ⟨id, .pending⟩ :: rest => { l with waiters := ⟨id, .woken⟩ :: rest }
  | _ => l

/-- `acquire` up to its await: whether the lock was taken at once. -/
def acquire (l : Lock) (id : Nat) : Lock × Bool :=
  if !l.locked && l.waiters.all (·.future = .cancelled) then ({ l with locked := true }, true)
  else ({ l with waiters := l.waiters ++ [⟨id, .pending⟩] }, false)

def release (l : Lock) : Lock := wakeFirst { l with locked := false }

def remove (l : Lock) (id : Nat) : Lock := { l with waiters := l.waiters.filter (·.id ≠ id) }

def cancel (l : Lock) (id : Nat) : Lock :=
  { l with waiters := l.waiters.map fun w => if w.id = id then w.cancel else w }

/-- The turn of a waiter whose future is done: whether it has the lock now. -/
def turn (l : Lock) (id : Nat) : Option (Lock × Bool) :=
  match l.waiters.find? (·.id = id) with
  | some ⟨_, .woken⟩ => some ({ l.remove id with locked := true }, true)
  | some ⟨_, .cancelled⟩ | some ⟨_, .doomed⟩ =>
      some (if l.locked then l.remove id else (l.remove id).wakeFirst, false)
  | some ⟨_, .pending⟩ | none => none

/-- Who stands in line. -/
def ids (l : Lock) : List Nat := l.waiters.map (·.id)

/-- A waiter that still wants the lock. -/
def queued (l : Lock) (id : Nat) : Bool := l.waiters.any fun w => w.id = id && w.live

/-! ## what the line keeps -/

/-- Only the first in line is ever awake, and then the lock is open; and an open lock
has nobody waiting at the head of the line. -/
structure Sound (l : Lock) : Prop where
  order : l.waiters.Pairwise fun v w => v.id < w.id
  tail : ∀ w ∈ l.waiters.tail, w.future.awake = false
  spoken : ∀ w ∈ l.waiters, w.future.awake = true → l.locked = false
  woken : l.locked = false → ∀ w ∈ l.waiters.head?, w.future ≠ .pending

variable {l l' : Lock} {id : Nat}

theorem sound_new : Sound {} where
  order := .nil
  tail w hw := by cases hw
  spoken w hw := by cases hw
  woken _ w hw := by cases hw

/-- Waking changes no place in the line. -/
theorem wakeFirst_ids (l : Lock) : l.wakeFirst.waiters.map (·.id) = l.waiters.map (·.id) := by
  rw [wakeFirst]
  split
  · rename_i h
    simp [h]
  · rfl

@[simp] theorem wakeFirst_locked (l : Lock) : l.wakeFirst.locked = l.locked := by
  rw [wakeFirst]
  split <;> rfl

/-- Waking the first in line, where nobody behind it is awake. -/
theorem sound_wakeFirst (hopen : l.locked = false)
    (order : l.waiters.Pairwise fun v w => v.id < w.id)
    (tail : ∀ w ∈ l.waiters.tail, w.future.awake = false) : Sound l.wakeFirst := by
  rw [wakeFirst]
  split
  · rename_i w rest hline
    rw [hline] at order tail
    refine ⟨?_, tail, fun _ _ _ => hopen, ?_⟩
    · exact List.pairwise_cons.mpr (List.pairwise_cons.mp order)
    · rintro - _ ⟨⟩
      simp
  · rename_i hhead
    refine ⟨order, tail, fun _ _ _ => hopen, fun _ w hw hpending => ?_⟩
    obtain ⟨rest, hline⟩ := List.head?_eq_some_iff.mp hw
    obtain ⟨id, future⟩ := w
    obtain rfl : future = .pending := hpending
    exact hhead id rest hline

theorem Sound.acquire (h : Sound l) (hlast : ∀ w ∈ l.waiters, w.id < id) :
    Sound (l.acquire id).1 := by
  rw [Lock.acquire]
  split
  · rename_i hopen
    simp only [Bool.and_eq_true, Bool.not_eq_true', List.all_eq_true, decide_eq_true_eq] at hopen
    refine ⟨h.order, h.tail, fun w hw hawake => ?_, fun hlocked => by cases hlocked⟩
    rw [hopen.2 w hw] at hawake
    cases hawake
  · rename_i hclosed
    refine ⟨?_, fun w hw => ?_, fun w hw hawake => ?_, fun hlocked w hw => ?_⟩
    · exact List.pairwise_append.mpr ⟨h.order, List.pairwise_singleton _ _,
        fun v hv w hw => by rw [List.mem_singleton.mp hw]; exact hlast v hv⟩
    · cases hline : l.waiters with
      | nil => simp [hline] at hw
      | cons first rest =>
        have := h.tail
        simp only [hline, List.tail_cons, List.cons_append, List.mem_append,
          List.mem_singleton] at hw this
        rcases hw with hw | rfl
        · exact this w hw
        · rfl
    · rcases List.mem_append.mp hw with hw | hw
      · exact h.spoken w hw hawake
      · rw [List.mem_singleton.mp hw] at hawake
        cases hawake
    · cases hline : l.waiters with
      | nil =>
        change l.locked = false at hlocked
        simp [hline, hlocked] at hclosed
      | cons first rest =>
        have := h.woken hlocked
        simp only [hline, List.cons_append, List.head?_cons, Option.mem_def,
          Option.some.injEq] at hw this
        exact this w hw

theorem Sound.release (h : Sound l) : Sound l.release := sound_wakeFirst rfl h.order h.tail

theorem tail_filter_awake {p : Waiter → Bool} {line : List Waiter}
    (h : ∀ w ∈ line.tail, w.future.awake = false) :
    ∀ w ∈ (line.filter p).tail, w.future.awake = false := by
  cases line with
  | nil => exact h
  | cons first rest =>
    intro w hw
    refine h w ?_
    rw [List.tail_cons]
    rw [List.filter_cons] at hw
    split at hw
    · exact List.mem_of_mem_filter hw
    · exact List.mem_of_mem_filter (List.mem_of_mem_tail hw)

/-- Who is awake stands first. -/
theorem Sound.awake_head (h : Sound l) {w : Waiter} (hw : w ∈ l.waiters)
    (hawake : w.future.awake = true) : ∃ rest, l.waiters = w :: rest := by
  cases hline : l.waiters with
  | nil => simp [hline] at hw
  | cons first rest =>
    rw [hline] at hw
    rcases List.mem_cons.mp hw with rfl | hw
    · exact ⟨rest, rfl⟩
    · have := h.tail w (by rw [hline]; exact hw)
      rw [this] at hawake
      cases hawake

/-- A waiter that is cancelled leaves the line. -/
theorem sound_left (h : Sound l) (order : (l.remove id).waiters.Pairwise fun v w => v.id < w.id)
    (tail : ∀ w ∈ (l.remove id).waiters.tail, w.future.awake = false) :
    Sound (if l.locked then l.remove id else (l.remove id).wakeFirst) := by
  split
  · rename_i hlocked
    refine ⟨order, tail, fun w hw hawake => ?_, fun hfree => ?_⟩
    · exact h.spoken w (List.mem_of_mem_filter hw) hawake
    · rw [show (l.remove id).locked = l.locked from rfl, hlocked] at hfree
      cases hfree
  · rename_i hlocked
    exact sound_wakeFirst (by simpa [remove] using hlocked) order tail

theorem Sound.turn (h : Sound l) {got : Bool} (hl' : l.turn id = some (l', got)) : Sound l' := by
  have order : (l.remove id).waiters.Pairwise fun v w => v.id < w.id := h.order.filter _
  have tail : ∀ w ∈ (l.remove id).waiters.tail, w.future.awake = false :=
    tail_filter_awake h.tail
  rw [Lock.turn] at hl'
  split at hl'
  · rename_i id' hfind
    obtain rfl : id' = id := by simpa using List.find?_some hfind
    obtain ⟨rfl, -⟩ := Prod.mk.inj (Option.some.inj hl')
    obtain ⟨rest, hline⟩ := h.awake_head (List.mem_of_find?_eq_some hfind) rfl
    refine ⟨order, tail, fun w hw hawake => ?_, fun hlocked => by cases hlocked⟩
    -- who was awake has the lock now
    have hrest : w ∈ rest := by
      obtain ⟨hw, hid⟩ := List.mem_filter.mp hw
      rw [hline] at hw
      rcases List.mem_cons.mp hw with rfl | hw
      · simp at hid
      · exact hw
    have := h.tail w (by rw [hline]; exact hrest)
    rw [this] at hawake
    cases hawake
  · obtain ⟨rfl, -⟩ := Prod.mk.inj (Option.some.inj hl')
    exact sound_left h order tail
  · obtain ⟨rfl, -⟩ := Prod.mk.inj (Option.some.inj hl')
    exact sound_left h order tail
  · cases hl'
  · cases hl'

theorem Sound.cancel (h : Sound l) : Sound (l.cancel id) := by
  have awake_cancel (w : Waiter) :
      (if w.id = id then w.cancel else w).future.awake = w.future.awake := by
    split
    · obtain ⟨id, future⟩ := w
      cases future <;> rfl
    · rfl
  refine ⟨?_, fun w hw => ?_, fun w hw hawake => ?_, fun hlocked w hw => ?_⟩
  · rw [Lock.cancel, List.pairwise_map]
    refine h.order.imp fun {v w} hlt => ?_
    have same (w : Waiter) : (if w.id = id then w.cancel else w).id = w.id := by split <;> rfl
    rwa [same, same]
  · rw [Lock.cancel, ← List.map_tail] at hw
    obtain ⟨v, hv, rfl⟩ := List.mem_map.mp hw
    rw [awake_cancel]
    exact h.tail v hv
  · obtain ⟨v, hv, rfl⟩ := List.mem_map.mp hw
    rw [awake_cancel] at hawake
    exact h.spoken v hv hawake
  · rw [Lock.cancel, List.head?_map] at hw
    obtain ⟨v, hv, rfl⟩ := Option.map_eq_some_iff.mp hw
    have := h.woken hlocked v hv
    split
    · rw [Waiter.cancel]
      split <;> simp
    · exact this

/-! ## who waits -/

/-- Who is woken stands first in line, and finds the lock open. -/
theorem Sound.turn_first (h : Sound l) (hl' : l.turn id = some (l', true)) :
    l.locked = false ∧ l'.locked = true ∧ id ∈ l.ids ∧ ∀ c ∈ l.ids, id ≤ c := by
  rw [Lock.turn] at hl'
  split at hl'
  · rename_i id' hfind
    obtain rfl : id' = id := by simpa using List.find?_some hfind
    obtain ⟨rfl, -⟩ := Prod.mk.inj (Option.some.inj hl')
    have hmem := List.mem_of_find?_eq_some hfind
    obtain ⟨rest, hline⟩ := h.awake_head hmem rfl
    refine ⟨h.spoken _ hmem rfl, rfl, List.mem_map_of_mem hmem, fun c hc => ?_⟩
    obtain ⟨w, hw, rfl⟩ := List.mem_map.mp hc
    rw [hline] at hw
    rcases List.mem_cons.mp hw with rfl | hw
    · exact Nat.le_refl _
    · have horder := h.order
      rw [hline] at horder
      exact Nat.le_of_lt (List.rel_of_pairwise_cons horder hw)
  all_goals first
    | cases (Prod.mk.inj (Option.some.inj hl')).2
    | cases hl'

/-- Who waits for its future waits for a holder, or for somebody in front. -/
theorem Sound.pending_behind (h : Sound l) (hmem : ⟨id, .pending⟩ ∈ l.waiters) :
    l.locked = true ∨ ∃ c ∈ l.ids, c < id := by
  cases hlocked : l.locked with
  | true => exact .inl rfl
  | false =>
    right
    cases hline : l.waiters with
    | nil => simp [hline] at hmem
    | cons first rest =>
      have hfirst := h.woken hlocked first (by rw [hline]; rfl)
      refine ⟨first.id, by simp [ids, hline], ?_⟩
      rw [hline] at hmem
      rcases List.mem_cons.mp hmem with rfl | hmem
      · exact absurd rfl hfirst
      · have horder := h.order
        rw [hline] at horder
        exact List.rel_of_pairwise_cons horder hmem

/-! ## what each call does to the line -/

theorem ids_wakeFirst : l.wakeFirst.ids = l.ids := wakeFirst_ids l

theorem queued_wakeFirst : l.wakeFirst.queued id = l.queued id := by
  rw [wakeFirst]
  split
  · rename_i first rest hline
    simp [queued, hline, Waiter.live]
  · rfl

@[simp] theorem release_locked (l : Lock) : l.release.locked = false := by
  rw [release, wakeFirst_locked]

@[simp] theorem ids_release (l : Lock) : l.release.ids = l.ids := wakeFirst_ids _

@[simp] theorem queued_release (l : Lock) : l.release.queued id = l.queued id := by
  rw [release, queued_wakeFirst]
  rfl

/-- The lock is taken at once where it is open and nobody in line wants it. -/
theorem acquire_true (h : l.acquire id = (l', true)) :
    l.locked = false ∧ l' = { l with locked := true } ∧ ∀ c, l.queued c = false := by
  rw [Lock.acquire] at h
  split at h
  · rename_i hopen
    simp only [Bool.and_eq_true, Bool.not_eq_true', List.all_eq_true, decide_eq_true_eq] at hopen
    refine ⟨hopen.1, (Prod.mk.inj h).1.symm, fun c => ?_⟩
    rw [queued, List.any_eq_false]
    intro w hw
    simp [Waiter.live, hopen.2 w hw]
  · cases (Prod.mk.inj h).2

theorem acquire_false (h : l.acquire id = (l', false)) :
    l'.locked = l.locked ∧ l'.ids = l.ids ++ [id] ∧
      ∀ c, l'.queued c = (l.queued c || id == c) := by
  rw [Lock.acquire] at h
  split at h
  · cases (Prod.mk.inj h).2
  · obtain rfl := (Prod.mk.inj h).1
    refine ⟨rfl, by simp [ids], fun c => ?_⟩
    simp [queued, Waiter.live, Bool.beq_eq_decide_eq]

theorem ids_remove : (l.remove id).ids = l.ids.filter (· ≠ id) := by
  rw [ids, remove, ids, List.filter_map]
  rfl

theorem queued_remove {c : Nat} (h : (l.remove id).queued c = true) :
    c ≠ id ∧ l.queued c = true := by
  rw [queued, List.any_eq_true] at *
  obtain ⟨w, hw, hc⟩ := h
  obtain ⟨hw, hid⟩ := List.mem_filter.mp hw
  simp only [Bool.and_eq_true, decide_eq_true_eq] at hc
  refine ⟨fun heq => ?_, ?_⟩
  · simp [hc.1, heq] at hid
  · exact ⟨w, hw, by simp [hc]⟩

/-- Whoever has its turn leaves the line; the lock is taken only by who was woken. -/
theorem turn_eq {got : Bool} (h : l.turn id = some (l', got)) :
    l'.ids = l.ids.filter (· ≠ id) ∧ l'.locked = (l.locked || got) ∧
      (∀ c, l'.queued c = true → c ≠ id ∧ l.queued c = true) ∧ (got = true → l.queued id = true) := by
  have left : (if l.locked then l.remove id else (l.remove id).wakeFirst).ids =
      l.ids.filter (· ≠ id) ∧
      (if l.locked then l.remove id else (l.remove id).wakeFirst).locked = l.locked ∧
      ∀ c, (if l.locked then l.remove id else (l.remove id).wakeFirst).queued c = true →
        c ≠ id ∧ l.queued c = true := by
    split
    · exact ⟨ids_remove, rfl, fun c => queued_remove⟩
    · refine ⟨ids_wakeFirst.trans ids_remove, wakeFirst_locked _, fun c hc => ?_⟩
      rw [queued_wakeFirst] at hc
      exact queued_remove hc
  rw [Lock.turn] at h
  split at h
  · rename_i id' hfind
    obtain rfl : id' = id := by simpa using List.find?_some hfind
    obtain ⟨rfl, rfl⟩ := Prod.mk.inj (Option.some.inj h)
    refine ⟨ids_remove, by simp, fun c => queued_remove (l := l), fun _ => ?_⟩
    rw [queued, List.any_eq_true]
    exact ⟨_, List.mem_of_find?_eq_some hfind, by simp [Waiter.live]⟩
  · obtain ⟨rfl, rfl⟩ := Prod.mk.inj (Option.some.inj h)
    exact ⟨left.1, by simpa using left.2.1, left.2.2, fun hgot => by cases hgot⟩
  · obtain ⟨rfl, rfl⟩ := Prod.mk.inj (Option.some.inj h)
    exact ⟨left.1, by simpa using left.2.1, left.2.2, fun hgot => by cases hgot⟩
  · cases h
  · cases h

@[simp] theorem cancel_locked (l : Lock) (id : Nat) : (l.cancel id).locked = l.locked := rfl

@[simp] theorem ids_cancel (l : Lock) (id : Nat) : (l.cancel id).ids = l.ids := by
  rw [ids, cancel, List.map_map]
  refine List.map_congr_left fun w _ => ?_
  rw [Function.comp_apply]
  split <;> rfl

theorem queued_cancel {c : Nat} (h : (l.cancel id).queued c = true) :
    l.queued c = true := by
  rw [queued, List.any_eq_true] at *
  obtain ⟨w, hw, hc⟩ := h
  obtain ⟨v, hv, rfl⟩ := List.mem_map.mp hw
  refine ⟨v, hv, ?_⟩
  by_cases hid : v.id = id
  · obtain ⟨n, future⟩ := v
    rw [if_pos hid] at hc
    cases future <;> simp [Waiter.cancel, Waiter.live, Future.awake] at hc
  · rwa [if_neg hid] at hc

end Lock

end AsyncLock
