import Telemax.Lib.KeyedLocks

/-!
# Telemax.Lib.KeyedLocksKept

The invariant of keyed locks: whoever is at work on a key, or on the way there,
holds on to the one slot that the map has for it.
-/

namespace KeyedLocks

open AsyncLock

variable {κ : Type}

/-- A call that waits for the key. -/
def Waits (calls : List (Call κ)) (k : κ) (n : Nat) : Prop :=
  ∃ c, calls[n]? = some c ∧ c.key = k ∧ c.waits = true

/-- A call of the task that has taken the key's lock. -/
def Takes (calls : List (Call κ)) (k : κ) (n task : Nat) : Prop :=
  ∃ c, calls[n]? = some c ∧ c.key = k ∧ c.stage = .inside .taken ∧ c.task = task

/-! ## calls that change or come -/

section

variable {calls : List (Call κ)} {k : κ} {m n task : Nat} {c : Call κ} {stage : Stage}

theorem waits_set (hc : calls[n]? = some c) :
    Waits (calls.set n { c with stage }) k m ↔
      m = n ∧ c.key = k ∧ Call.waits { c with stage } = true ∨ m ≠ n ∧ Waits calls k m := by
  constructor
  · rintro ⟨d, hd, hk, hwaits⟩
    rcases Tasks.set_cases hd with ⟨rfl, rfl⟩ | ⟨hm, hd⟩
    · exact .inl ⟨rfl, hk, hwaits⟩
    · exact .inr ⟨hm, d, hd, hk, hwaits⟩
  · rintro (⟨rfl, hk, hwaits⟩ | ⟨hm, d, hd, hk, hwaits⟩)
    · exact ⟨_, List.getElem?_set_self (List.getElem?_eq_some_iff.mp hc).1, hk, hwaits⟩
    · exact ⟨d, by rw [List.getElem?_set_ne (Ne.symm hm)]; exact hd, hk, hwaits⟩

theorem takes_set (hc : calls[n]? = some c) :
    Takes (calls.set n { c with stage }) k m task ↔
      m = n ∧ c.key = k ∧ stage = .inside .taken ∧ c.task = task ∨ m ≠ n ∧ Takes calls k m task := by
  constructor
  · rintro ⟨d, hd, hk, hstage, htask⟩
    rcases Tasks.set_cases hd with ⟨rfl, rfl⟩ | ⟨hm, hd⟩
    · exact .inl ⟨rfl, hk, hstage, htask⟩
    · exact .inr ⟨hm, d, hd, hk, hstage, htask⟩
  · rintro (⟨rfl, hk, hstage, htask⟩ | ⟨hm, d, hd, hk, hstage, htask⟩)
    · exact ⟨_, List.getElem?_set_self (List.getElem?_eq_some_iff.mp hc).1, hk, hstage, htask⟩
    · exact ⟨d, by rw [List.getElem?_set_ne (Ne.symm hm)]; exact hd, hk, hstage, htask⟩

/-- A call that has not got the lock and does not get it changes nothing for who has it. -/
theorem takes_same (hc : calls[n]? = some c)
    (hold : c.stage ≠ .inside .taken) (hnew : stage ≠ .inside .taken) (k : κ) (m task : Nat) :
    Takes (calls.set n { c with stage }) k m task ↔ Takes calls k m task := by
  rw [takes_set hc]
  constructor
  · rintro (⟨-, -, hstage, -⟩ | ⟨-, h⟩)
    · exact absurd hstage hnew
    · exact h
  · rintro ⟨d, hd, hk, hstage, htask⟩
    refine .inr ⟨?_, d, hd, hk, hstage, htask⟩
    rintro rfl
    rw [Option.some.inj (hc.symm.trans hd)] at hold
    exact hold hstage

theorem waits_append :
    Waits (calls ++ [c]) k m ↔ Waits calls k m ∨ m = calls.length ∧ c.key = k ∧ c.waits = true := by
  constructor
  · rintro ⟨d, hd, hk, hwaits⟩
    rcases Tasks.append_cases hd with ⟨rfl, rfl⟩ | hd
    · exact .inr ⟨rfl, hk, hwaits⟩
    · exact .inl ⟨d, hd, hk, hwaits⟩
  · rintro (⟨d, hd, hk, hwaits⟩ | ⟨rfl, hk, hwaits⟩)
    · exact ⟨d, by rw [List.getElem?_append_left (List.getElem?_eq_some_iff.mp hd).1]; exact hd,
        hk, hwaits⟩
    · exact ⟨c, List.getElem?_concat_length, hk, hwaits⟩

theorem takes_append :
    Takes (calls ++ [c]) k m task ↔ Takes calls k m task ∨
      m = calls.length ∧ c.key = k ∧ c.stage = .inside .taken ∧ c.task = task := by
  constructor
  · rintro ⟨d, hd, hk, hstage, htask⟩
    rcases Tasks.append_cases hd with ⟨rfl, rfl⟩ | hd
    · exact .inr ⟨rfl, hk, hstage, htask⟩
    · exact .inl ⟨d, hd, hk, hstage, htask⟩
  · rintro (⟨d, hd, hk, hstage, htask⟩ | ⟨rfl, hk, hstage, htask⟩)
    · exact ⟨d, by rw [List.getElem?_append_left (List.getElem?_eq_some_iff.mp hd).1]; exact hd,
        hk, hstage, htask⟩
    · exact ⟨c, List.getElem?_concat_length, hk, hstage, htask⟩

end

/-! ## what a slot says -/

/-- The lock is locked for the one call that has taken it. -/
structure Held (calls : List (Call κ)) (k : κ) (locked : Bool) (holder : Option Nat) : Prop where
  held : ∀ {n task}, Takes calls k n task → locked = true ∧ holder = some task
  one : ∀ {m n task task'}, Takes calls k m task → Takes calls k n task' → m = n
  taken : locked = true → ∃ n task, Takes calls k n task
  free : locked = false → holder = none

section

variable {calls calls' : List (Call κ)} {k : κ} {n task : Nat} {locked : Bool}
  {holder : Option Nat}

theorem Held.congr (h : Held calls k locked holder)
    (htakes : ∀ m task, Takes calls' k m task ↔ Takes calls k m task) :
    Held calls' k locked holder where
  held htaken := h.held ((htakes _ _).mp htaken)
  one hm hn := h.one ((htakes _ _).mp hm) ((htakes _ _).mp hn)
  taken hlocked := by
    obtain ⟨n, task, htaken⟩ := h.taken hlocked
    exact ⟨n, task, (htakes _ _).mpr htaken⟩
  free := h.free

theorem Held.nobody (h : Held calls k false holder) (m task : Nat) : ¬ Takes calls k m task := by
  intro htaken
  cases (h.held htaken).1

/-- The open lock is taken. -/
theorem Held.take (htakes : ∀ m t, Takes calls' k m t ↔ m = n ∧ t = task) :
    Held calls' k true (some task) where
  held htaken := ⟨rfl, by rw [((htakes _ _).mp htaken).2]⟩
  one hm hn := ((htakes _ _).mp hm).1.trans ((htakes _ _).mp hn).1.symm
  taken _ := ⟨n, task, (htakes _ _).mpr ⟨rfl, rfl⟩⟩
  free h := by cases h

/-- Who has it gives it back. -/
theorem Held.release (h : Held calls k locked holder) (hn : Takes calls k n task)
    (htakes : ∀ m t, Takes calls' k m t → m ≠ n ∧ Takes calls k m t) : Held calls' k false none := by
  have nobody (m t : Nat) : ¬ Takes calls' k m t := fun hm => by
    obtain ⟨hne, hm⟩ := htakes m t hm
    exact hne (h.one hm hn)
  exact ⟨fun hm => absurd hm (nobody _ _), fun hm => absurd hm (nobody _ _),
    fun h => (by cases h), fun _ => rfl⟩

end

/-! ## how a call goes on -/

/-- How a call goes on, and what becomes of its slot. -/
inductive Change (n : Nat) (c : Call κ) (slot : Slot) : Slot → Stage → Prop
  | looked {lock : Lock} (hstage : c.stage = .waiting true)
      (hturn : slot.lock.turn n = some (lock, true)) :
      Change n c slot { slot with lock := lock.release } (.inside .looked)
  | took {lock : Lock} (hstage : c.stage = .waiting false)
      (hturn : slot.lock.turn n = some (lock, true)) :
      Change n c slot { slot with lock, holder := some c.task } (.inside .taken)
  | quit {lock : Lock} {looks : Bool} (hstage : c.stage = .waiting looks)
      (hturn : slot.lock.turn n = some (lock, false)) :
      Change n c slot { slot with lock, users := slot.users - 1 } (.ended none)
  | cancelled {looks : Bool} (hstage : c.stage = .waiting looks) :
      Change n c slot { slot with lock := slot.lock.cancel n } (.waiting looks)
  | left {how : How} (hstage : c.stage = .inside how) (hhow : how ≠ .taken) :
      Change n c slot { slot with users := slot.users - 1 } (.ended (some how))
  | gave (hstage : c.stage = .inside .taken) :
      Change n c slot ⟨slot.lock.release, slot.users - 1, none⟩ (.ended (some .taken))

theorem Change.not_nested {n : Nat} {c : Call κ} {slot slot' : Slot} {stage : Stage}
    (h : Change n c slot slot' stage) : stage ≠ .inside .nested := by
  cases h <;> simp

theorem Change.live {n : Nat} {c : Call κ} {slot slot' : Slot} {stage : Stage}
    (h : Change n c slot slot' stage) : c.live = true := by
  cases h <;> simp [Call.live, *]

/-- Nobody comes to want the lock when another call goes on. -/
theorem Change.queued {n m : Nat} {c : Call κ} {slot slot' : Slot} {stage : Stage}
    (h : Change n c slot slot' stage) (hm : slot'.lock.queued m = true) :
    slot.lock.queued m = true := by
  cases h with
  | looked _ hturn =>
    rw [Lock.queued_release] at hm
    exact ((Lock.turn_eq hturn).2.2.1 m hm).2
  | took _ hturn => exact ((Lock.turn_eq hturn).2.2.1 m hm).2
  | quit _ hturn => exact ((Lock.turn_eq hturn).2.2.1 m hm).2
  | cancelled _ => exact Lock.queued_cancel hm
  | left _ _ => exact hm
  | gave _ =>
    rw [Lock.queued_release] at hm
    exact hm

/-! ## the invariant -/

variable [DecidableEq κ]

/-- It counts as a user of the key. -/
def Call.uses (k : κ) (c : Call κ) : Bool := c.live && c.key = k

/-- What a slot says of the calls for its key. -/
structure Tally (calls : List (Call κ)) (k : κ) (slot : Slot) : Prop where
  users : slot.users = calls.countP (Call.uses k)
  sound : slot.lock.Sound
  line : ∀ n, n ∈ slot.lock.ids ↔ Waits calls k n
  held : Held calls k slot.lock.locked slot.holder

structure Kept (s : State κ) : Prop where
  live : ∀ {n : Nat} {c : Call κ}, s.calls[n]? = some c → c.live = true →
    s.slots c.key = some c.slot
  inj : ∀ {k k' : κ} {o : Nat}, s.slots k = some o → s.slots k' = some o → k = k'
  entry : ∀ {k : κ} {o : Nat}, s.slots k = some o →
    ∃ slot, s.heap[o]? = some slot ∧ 0 < slot.users ∧ Tally s.calls k slot
  /-- Who walked straight in is inside a block of its own task that has the lock. -/
  nested : ∀ {n : Nat} {c : Call κ}, s.calls[n]? = some c → c.stage = .inside .nested →
    ∃ m, m < n ∧ Takes s.calls c.key m c.task

section

variable {calls calls' : List (Call κ)} {k : κ} {n : Nat} {c : Call κ} {stage : Stage} {slot : Slot}

/-- Calls for other keys are nothing to a slot. -/
theorem Tally.congr (h : Tally calls k slot)
    (hcount : calls'.countP (Call.uses k) = calls.countP (Call.uses k))
    (hwaits : ∀ m, Waits calls' k m ↔ Waits calls k m)
    (htakes : ∀ m task, Takes calls' k m task ↔ Takes calls k m task) : Tally calls' k slot where
  users := by rw [hcount, h.users]
  sound := h.sound
  line n := (h.line n).trans (hwaits n).symm
  held := h.held.congr htakes

theorem Tally.set_other (h : Tally calls k slot) (hc : calls[n]? = some c) (hk : c.key ≠ k) :
    Tally (calls.set n { c with stage }) k slot := by
  refine h.congr ?_ (fun m => ?_) (fun m task => ?_)
  · have := Tasks.countP_set (a := { c with stage }) (Call.uses k) hc
    simpa [Call.uses, hk] using this
  · rw [waits_set hc]
    constructor
    · rintro (⟨-, hk', -⟩ | ⟨-, hm⟩)
      · exact absurd hk' hk
      · exact hm
    · rintro ⟨d, hd, hk', hwaits⟩
      refine .inr ⟨?_, d, hd, hk', hwaits⟩
      rintro rfl
      rw [Option.some.inj (hc.symm.trans hd)] at hk
      exact hk hk'
  · rw [takes_set hc]
    constructor
    · rintro (⟨-, hk', -⟩ | ⟨-, hm⟩)
      · exact absurd hk' hk
      · exact hm
    · rintro ⟨d, hd, hk', htaken⟩
      refine .inr ⟨?_, d, hd, hk', htaken⟩
      rintro rfl
      rw [Option.some.inj (hc.symm.trans hd)] at hk
      exact hk hk'

theorem Tally.append_other (h : Tally calls k slot) (hk : c.key ≠ k) :
    Tally (calls ++ [c]) k slot := by
  refine h.congr ?_ (fun m => ?_) (fun m task => ?_)
  · simp [Call.uses, hk]
  · rw [waits_append]
    simp [hk]
  · rw [takes_append]
    simp [hk]

/-- A call for the key changes. -/
theorem Tally.set_own {slot' : Slot} (h : Tally calls k slot) (hc : calls[n]? = some c)
    (hk : c.key = k) (hlive : c.live = true)
    (husers : slot'.users + 1 = slot.users + if Call.live { c with stage } then 1 else 0)
    (hsound : slot'.lock.Sound)
    (hline : ∀ m, m ∈ slot'.lock.ids ↔
      m = n ∧ Call.waits { c with stage } = true ∨ m ≠ n ∧ m ∈ slot.lock.ids)
    (hheld : Held (calls.set n { c with stage }) k slot'.lock.locked slot'.holder) :
    Tally (calls.set n { c with stage }) k slot' where
  users := by
    have hcount := Tasks.countP_set (a := { c with stage }) (Call.uses k) hc
    subst hk
    simp only [Call.uses, hlive, decide_true, Bool.and_true, if_true] at hcount
    have := h.users
    omega
  sound := hsound
  line m := by
    rw [hline, waits_set hc, h.line]
    simp [hk]
  held := hheld

/-- A call for the key comes. -/
theorem Tally.append_own {slot' : Slot} (h : Tally calls k slot) (hk : c.key = k)
    (hlive : c.live = true) (husers : slot'.users = slot.users + 1) (hsound : slot'.lock.Sound)
    (hline : ∀ m, m ∈ slot'.lock.ids ↔ m ∈ slot.lock.ids ∨ m = calls.length ∧ c.waits = true)
    (hheld : Held (calls ++ [c]) k slot'.lock.locked slot'.holder) :
    Tally (calls ++ [c]) k slot' where
  users := by
    rw [List.countP_append, husers, h.users]
    simp [Call.uses, hlive, hk]
  sound := hsound
  line m := by
    rw [hline, waits_append, h.line]
    simp [hk]
  held := hheld

end

/-! ## one step -/

namespace Kept

variable {s s' : State κ} {n : Nat} {c : Call κ} {slot slot' : Slot} {stage : Stage}

/-- Two keys with an entry have different slots. -/
theorem slot_ne (h : Kept s) {k : κ} {o : Nat} (hc : s.slots c.key = some c.slot)
    (hk : s.slots k = some o) (hne : k ≠ c.key) : o ≠ c.slot := by
  rintro rfl
  exact hne (h.inj hk hc)

/-- The slot of a call that is not over. -/
theorem tally (h : Kept s) (hc : s.calls[n]? = some c) (hlive : c.live = true)
    (hslot : s.heap[c.slot]? = some slot) : 0 < slot.users ∧ Tally s.calls c.key slot := by
  obtain ⟨slot', hslot', htally⟩ := h.entry (h.live hc hlive)
  rw [Option.some.inj (hslot.symm.trans hslot')]
  exact htally

/-- Whoever walked straight in stays inside a block that has the lock. -/
theorem nested_set (h : Kept s) (hc : s.calls[n]? = some c) (hstage : stage ≠ .inside .nested)
    (hleave : c.stage = .inside .taken → s.innermost n c = true) {m : Nat} {d : Call κ}
    (hd : (s.calls.set n { c with stage })[m]? = some d) (hnested : d.stage = .inside .nested) :
    ∃ l, l < m ∧ Takes (s.calls.set n { c with stage }) d.key l d.task := by
  rcases Tasks.set_cases hd with ⟨rfl, rfl⟩ | ⟨hm, hold⟩
  · exact absurd hnested hstage
  · obtain ⟨l, hl, htakes⟩ := h.nested hold hnested
    refine ⟨l, hl, (takes_set hc).mpr (.inr ⟨?_, htakes⟩)⟩
    -- the call that has the lock does not end before the one inside it
    rintro rfl
    obtain ⟨b, hb, hk, htaken, htask⟩ := htakes
    obtain rfl := Option.some.inj (hc.symm.trans hb)
    have hinner := hleave htaken
    rw [State.innermost, List.isEmpty_iff, State.those, List.filter_eq_nil_iff] at hinner
    have hlt : m < s.calls.length := (List.getElem?_eq_some_iff.mp hold).1
    have := hinner m (List.mem_range.mpr hlt)
    simp [hold, hl, htask, Call.live, hnested] at this

/-- A call goes on, or leaves while others use its slot. -/
theorem settle (h : Kept s) (hc : s.calls[n]? = some c) (hlive : c.live = true)
    (hslot : s.heap[c.slot]? = some slot) (hpos : 0 < slot'.users)
    (htally : Tally (s.calls.set n { c with stage }) c.key slot')
    (hstage : stage ≠ .inside .nested)
    (hleave : c.stage = .inside .taken → s.innermost n c = true) :
    Kept (s.settle n c slot' stage) := by
  have hentry := h.live hc hlive
  refine ⟨fun {m d} hd hdlive => ?_, h.inj, fun {k o} hk => ?_,
    fun hd hnested => h.nested_set hc hstage hleave hd hnested⟩
  · rcases Tasks.set_cases hd with ⟨rfl, rfl⟩ | ⟨-, hd⟩
    · exact hentry
    · exact h.live hd hdlive
  · by_cases hkey : k = c.key
    · subst hkey
      obtain rfl := Option.some.inj (hk.symm.trans hentry)
      exact ⟨slot', List.getElem?_set_self (List.getElem?_eq_some_iff.mp hslot).1, hpos, htally⟩
    · obtain ⟨other, hother, hpos, hrest⟩ := h.entry hk
      refine ⟨other, ?_, hpos, hrest.set_other hc (Ne.symm hkey)⟩
      exact (List.getElem?_set_ne (Ne.symm (h.slot_ne hentry hk hkey))).trans hother

/-- The last to leave finds the lock open. -/
theorem open_of_unused {calls : List (Call κ)} {k : κ} (h : Tally calls k slot)
    (hzero : slot.users = 0) : slot.lock.locked = false ∧
      ∀ {m : Nat} {d : Call κ}, calls[m]? = some d → d.key = k → d.live = false := by
  have hnone {m : Nat} {d : Call κ} (hd : calls[m]? = some d) (hk : d.key = k) :
      d.live = false := by
    have hcount := h.users.symm.trans hzero
    rw [List.countP_eq_zero] at hcount
    have := hcount d (List.mem_of_getElem? hd)
    simpa [Call.uses, hk] using this
  refine ⟨?_, hnone⟩
  by_contra hlocked
  obtain ⟨m, task, d, hd, hk, hstage, -⟩ := h.held.taken (by simpa using hlocked)
  have := hnone hd hk
  simp [Call.live, hstage] at this

theorem update_none {slots : κ → Option Nat} {k k' : κ} {o : Nat}
    (h : Function.update slots k none k' = some o) : k' ≠ k ∧ slots k' = some o := by
  by_cases hk : k' = k
  · subst hk
    rw [Function.update_self] at h
    cases h
  · rw [Function.update_of_ne hk] at h
    exact ⟨hk, h⟩

/-- A call leaves. -/
theorem finish {policy : Policy} (hdrops : policy.drops false = true) (h : Kept s)
    (hc : s.calls[n]? = some c) (hlive : c.live = true)
    (hslot : s.heap[c.slot]? = some slot) {how : Option How}
    (htally : Tally (s.calls.set n { c with stage := .ended how }) c.key
      { slot' with users := slot'.users - 1 })
    (hleave : c.stage = .inside .taken → s.innermost n c = true) :
    Kept (s.finish policy n c slot' how) := by
  have hentry := h.live hc hlive
  have hnested {m : Nat} {d : Call κ}
      (hd : (s.calls.set n { c with stage := .ended how })[m]? = some d) :
      d.stage = .inside .nested → ∃ l, l < m ∧
        Takes (s.calls.set n { c with stage := .ended how }) d.key l d.task :=
    h.nested_set hc (by simp) hleave hd
  rw [State.finish]
  dsimp only
  by_cases hzero : slot'.users - 1 = 0
  · -- nobody is left
    obtain ⟨hopen, hnone⟩ := open_of_unused htally hzero
    have hdrop : (slot'.users - 1 = 0 && policy.drops slot'.lock.locked) = true := by
      rw [show slot'.lock.locked = false from hopen, hdrops, hzero]
      rfl
    rw [if_pos hdrop]
    refine ⟨fun {m d} hd hdlive => ?_, fun {k k' o} hk hk' => ?_, fun {k o} hk => ?_,
      fun hd => hnested hd⟩
    · have hne : d.key ≠ c.key := fun heq => by
        rw [hnone hd heq] at hdlive
        cases hdlive
      refine (Function.update_of_ne hne _ _).trans ?_
      rcases Tasks.set_cases hd with ⟨rfl, rfl⟩ | ⟨-, hd⟩
      · exact absurd rfl hne
      · exact h.live hd hdlive
    · obtain ⟨-, hk⟩ := update_none hk
      obtain ⟨-, hk'⟩ := update_none hk'
      exact h.inj hk hk'
    · obtain ⟨hne, hk⟩ := update_none hk
      obtain ⟨other, hother, hpos, hrest⟩ := h.entry hk
      refine ⟨other, ?_, hpos, hrest.set_other hc (Ne.symm hne)⟩
      exact (List.getElem?_set_ne (Ne.symm (h.slot_ne hentry hk hne))).trans hother
  · have hstay : (slot'.users - 1 = 0 && policy.drops slot'.lock.locked) = false := by
      simp [hzero]
    rw [if_neg (by simpa using hstay)]
    exact h.settle hc hlive hslot (Nat.pos_of_ne_zero hzero) htally (by simp) hleave

variable {policy : Policy}

theorem turn (hdrops : policy.drops false = true) (h : Kept s) (hc : s.calls[n]? = some c)
    (hslot : s.heap[c.slot]? = some slot) (hs' : s.turn policy n c slot = some s') : Kept s' := by
  rw [State.turn] at hs'
  split at hs'
  case h_2 => cases hs'
  case h_3 => cases hs'
  rename_i looks hstage
  have hlive : c.live = true := by simp [Call.live, hstage]
  have hold : c.stage ≠ .inside .taken := by simp [hstage]
  obtain ⟨hpos, htally⟩ := h.tally hc hlive hslot
  obtain ⟨⟨lock, got⟩, hturn, rfl⟩ := Option.map_eq_some_iff.mp hs'
  obtain ⟨hids, hlocked, -⟩ := Lock.turn_eq hturn
  have hsound := htally.sound.turn hturn
  have hline (waits : Bool) (hwaits : waits = false) (m : Nat) :
      m ∈ slot.lock.ids.filter (· ≠ n) ↔ m = n ∧ waits = true ∨ m ≠ n ∧ m ∈ slot.lock.ids := by
    simp [hwaits, and_comm]
  have hleave : c.stage = .inside .taken → s.innermost n c = true := fun h => absurd h hold
  cases got with
  | false =>
    refine h.finish hdrops hc hlive hslot (htally.set_own hc rfl hlive ?_ hsound ?_ ?_) hleave
    · simp [Call.live]
      omega
    · intro m
      rw [show ({ slot with lock } : Slot).lock.ids = _ from hids]
      exact hline _ rfl m
    · rw [show lock.locked = slot.lock.locked by simpa using hlocked]
      exact htally.held.congr (takes_same hc hold (by simp) c.key)
  | true =>
    have hopen := (htally.sound.turn_first hturn).1
    rw [hopen] at hlocked
    have hheld := htally.held
    rw [hopen] at hheld
    dsimp only
    split
    · refine h.settle hc hlive hslot hpos (htally.set_own hc rfl hlive ?_ ?_ ?_ ?_) (by simp) hleave
      · simp [Call.live]
      · exact hsound.release
      · intro m
        rw [show ({ slot with lock := lock.release } : Slot).lock.ids = _ from
          (Lock.ids_release lock).trans hids]
        exact hline _ rfl m
      · rw [Lock.release_locked]
        exact hheld.congr (takes_same hc hold (by simp) c.key)
    · refine h.settle hc hlive hslot hpos (htally.set_own hc rfl hlive ?_ hsound ?_ ?_) (by simp) hleave
      · simp [Call.live]
      · intro m
        rw [show ({ slot with lock, holder := some c.task } : Slot).lock.ids = _ from hids]
        exact hline _ rfl m
      · rw [show lock.locked = true by simpa using hlocked]
        refine Held.take (n := n) fun m t => ?_
        rw [takes_set hc]
        constructor
        · rintro (⟨rfl, -, -, rfl⟩ | ⟨-, htakes⟩)
          · exact ⟨rfl, rfl⟩
          · exact absurd htakes (hheld.nobody m t)
        · rintro ⟨rfl, rfl⟩
          exact .inl ⟨rfl, rfl, rfl, rfl⟩

theorem cancel (h : Kept s) (hc : s.calls[n]? = some c) (hslot : s.heap[c.slot]? = some slot)
    (hs' : s.cancel n c slot = some s') : Kept s' := by
  rw [State.cancel] at hs'
  split at hs'
  case h_2 => cases hs'
  case h_3 => cases hs'
  rename_i looks hstage
  obtain rfl := Option.some.inj hs'
  have hlive : c.live = true := by simp [Call.live, hstage]
  have hold : c.stage ≠ .inside .taken := by simp [hstage]
  obtain ⟨hpos, htally⟩ := h.tally hc hlive hslot
  have hmem : n ∈ slot.lock.ids := (htally.line n).mpr ⟨c, hc, rfl, by simp [Call.waits, hstage]⟩
  refine h.settle hc hlive hslot hpos (htally.set_own hc rfl hlive ?_ htally.sound.cancel ?_ ?_)
    (by simp) fun h => absurd h hold
  · simp [Call.live]
  · intro m
    rw [show ({ slot with lock := slot.lock.cancel n } : Slot).lock.ids = slot.lock.ids from
      Lock.ids_cancel _ _]
    constructor
    · intro hm
      by_cases heq : m = n
      · exact .inl ⟨heq, rfl⟩
      · exact .inr ⟨heq, hm⟩
    · rintro (⟨rfl, -⟩ | ⟨-, hm⟩)
      · exact hmem
      · exact hm
  · exact htally.held.congr (takes_same hc hold (by simp) c.key)

theorem leave (hdrops : policy.drops false = true) (h : Kept s) (hc : s.calls[n]? = some c)
    (hslot : s.heap[c.slot]? = some slot) (hs' : s.leave policy n c slot = some s') : Kept s' := by
  rw [State.leave] at hs'
  split at hs'
  case h_2 => cases hs'
  case h_3 => cases hs'
  rename_i how hstage
  split at hs'
  · cases hs'
  rename_i hinner
  have hlive : c.live = true := by simp [Call.live, hstage]
  obtain ⟨hpos, htally⟩ := h.tally hc hlive hslot
  have hnot : n ∉ slot.lock.ids := by
    rw [htally.line]
    rintro ⟨d, hd, -, hwaits⟩
    obtain rfl := Option.some.inj (hc.symm.trans hd)
    simp [Call.waits, hstage] at hwaits
  have hline (m : Nat) :
      m ∈ slot.lock.ids ↔ m = n ∧ (false = true) ∨ m ≠ n ∧ m ∈ slot.lock.ids := by
    constructor
    · exact fun hm => .inr ⟨fun heq => hnot (heq ▸ hm), hm⟩
    · rintro (⟨-, hfalse⟩ | ⟨-, hm⟩)
      · cases hfalse
      · exact hm
  have hleave : c.stage = .inside .taken → s.innermost n c = true := fun _ => by simpa using hinner
  split at hs'
  · rename_i htaken
    subst htaken
    obtain rfl := Option.some.inj hs'
    refine h.finish hdrops hc hlive hslot
      (htally.set_own hc rfl hlive ?_ htally.sound.release ?_ ?_) hleave
    · simp [Call.live]
      omega
    · intro m
      rw [Lock.ids_release]
      exact hline m
    · rw [Lock.release_locked]
      refine htally.held.release ⟨c, hc, rfl, hstage, rfl⟩ fun m t hm => ?_
      rcases (takes_set hc).mp hm with ⟨-, -, hended, -⟩ | hm
      · cases hended
      · exact hm
  · rename_i hnottaken
    obtain rfl := Option.some.inj hs'
    have hold : c.stage ≠ .inside .taken := by simpa [hstage] using hnottaken
    refine h.finish hdrops hc hlive hslot
      (htally.set_own hc rfl hlive ?_ htally.sound hline ?_) hleave
    · simp [Call.live]
      omega
    · exact htally.held.congr (takes_same hc hold (by simp) c.key)

/-- The entry of a key, whether it was there or is made. -/
theorem entry_spec (h : Kept s) (k : κ) :
    ∃ slot, (s.entry k).2.heap[(s.entry k).1]? = some slot ∧ Tally s.calls k slot ∧
      (s.entry k).2.calls = s.calls ∧ (s.entry k).2.slots k = some (s.entry k).1 ∧
      (∀ {k' : κ}, k' ≠ k → (s.entry k).2.slots k' = s.slots k') ∧
      (∀ {k' : κ} {o : Nat}, k' ≠ k → s.slots k' = some o → o ≠ (s.entry k).1 ∧
        (s.entry k).2.heap[o]? = s.heap[o]?) ∧
      ∀ {n : Nat} {c : Call κ}, s.calls[n]? = some c → c.live = true → c.key = k →
        c.slot = (s.entry k).1 := by
  cases hk : s.slots k with
  | some o =>
    obtain ⟨slot, hslot, -, htally⟩ := h.entry hk
    have heq : s.entry k = (o, s) := by simp [State.entry, hk]
    rw [heq]
    refine ⟨slot, hslot, htally, rfl, hk, fun _ => rfl, fun {k' o'} hne hk' => ⟨?_, rfl⟩,
      fun hc hlive hkey => ?_⟩
    · rintro rfl
      exact hne (h.inj hk' hk)
    · have := h.live hc hlive
      rw [hkey, hk] at this
      exact (Option.some.inj this).symm
  | none =>
    have heq : s.entry k = (s.heap.length, { s with
        slots := Function.update s.slots k (some s.heap.length), heap := s.heap ++ [{}] }) := by
      simp [State.entry, hk]
    have hnone {n : Nat} {c : Call κ} (hc : s.calls[n]? = some c) (hkey : c.key = k) :
        c.live = false := by
      by_contra hlive
      have := h.live hc (by simpa using hlive)
      rw [hkey, hk] at this
      cases this
    rw [heq]
    refine ⟨{}, List.getElem?_concat_length, ⟨?_, Lock.sound_new, fun n => ⟨fun hn => (by cases hn),
      ?_⟩, ⟨?_, ?_, fun hlocked => (by cases hlocked), fun _ => rfl⟩⟩, rfl,
      Function.update_self .., fun hne => Function.update_of_ne hne .., fun {k' o} _ hk' => ?_,
      fun hc hlive hkey => ?_⟩
    · symm
      rw [List.countP_eq_zero]
      intro c hc
      obtain ⟨n, hn⟩ := List.getElem?_of_mem hc
      by_cases hkey : c.key = k
      · simp [Call.uses, hnone hn hkey]
      · simp [Call.uses, hkey]
    · rintro ⟨c, hc, hkey, hwaits⟩
      have := hnone hc hkey
      cases hstage : c.stage <;> simp [Call.live, Call.waits, hstage] at this hwaits
    · rintro n task ⟨c, hc, hkey, hstage, -⟩
      have := hnone hc hkey
      simp [Call.live, hstage] at this
    · rintro m n task task' ⟨c, hc, hkey, hstage, -⟩
      have := hnone hc hkey
      simp [Call.live, hstage] at this
    · obtain ⟨slot, hslot, -⟩ := h.entry hk'
      have hlt := (List.getElem?_eq_some_iff.mp hslot).1
      exact ⟨Nat.ne_of_lt hlt, List.getElem?_append_left hlt⟩
    · rw [hnone hc hkey] at hlive
      cases hlive

/-- What an arrival does to the slot, under a policy that lets only the holder walk in. -/
theorem tally_arrive {calls : List (Call κ)} {k : κ} {task : Nat} {c : Call κ}
    (h : Tally calls k slot) (hk : c.key = k) (htask : c.task = task)
    (hstage : (slot', c.stage) =
      State.arrive policy { slot with users := slot.users + 1 } task calls.length) :
    0 < slot'.users ∧ Tally (calls ++ [c]) k slot' := by
  have takes_same (hnot : c.stage ≠ .inside .taken) (m t : Nat) :
      Takes (calls ++ [c]) k m t ↔ Takes calls k m t := by
    rw [takes_append]
    simp [hnot]
  have hlast : ∀ w ∈ slot.lock.waiters, w.id < calls.length := by
    intro w hw
    obtain ⟨d, hd, -⟩ := (h.line w.id).mp (List.mem_map_of_mem hw)
    exact (List.getElem?_eq_some_iff.mp hd).1
  have hsound := h.sound.acquire hlast
  have hline {waits : Bool} (hwaits : waits = false) (m : Nat) :
      m ∈ slot.lock.ids ↔ m ∈ slot.lock.ids ∨ m = calls.length ∧ waits = true := by
    simp [hwaits]
  rw [State.arrive] at hstage
  split at hstage
  · obtain ⟨rfl, hst⟩ := Prod.mk.inj hstage
    refine ⟨Nat.succ_pos _, h.append_own hk (by simp [Call.live, hst]) rfl h.sound
      (hline (by simp [Call.waits, hst])) ?_⟩
    exact h.held.congr (takes_same (by simp [hst]))
  · dsimp only at hstage
    cases hacquire : slot.lock.acquire calls.length with
    | mk lock got =>
      rw [hacquire] at hstage hsound
      cases got with
      | true =>
        obtain ⟨hopen, rfl, -⟩ := Lock.acquire_true hacquire
        obtain ⟨rfl, hst⟩ := Prod.mk.inj hstage
        refine ⟨Nat.succ_pos _, h.append_own hk (by simp [Call.live, hst]) rfl hsound.release
          ?_ ?_⟩
        · intro m
          rw [Lock.ids_release]
          exact hline (by simp [Call.waits, hst]) m
        · rw [Lock.release_locked, ← hopen]
          exact h.held.congr (takes_same (by simp [hst]))
      | false =>
        obtain ⟨hlocked, hids, -⟩ := Lock.acquire_false hacquire
        obtain ⟨rfl, hst⟩ := Prod.mk.inj hstage
        refine ⟨Nat.succ_pos _, h.append_own hk (by simp [Call.live, hst]) rfl hsound ?_ ?_⟩
        · intro m
          rw [show ({ slot with lock, users := slot.users + 1 } : Slot).lock.ids = _ from hids]
          simp [Call.waits, hst]
        · rw [show lock.locked = _ from hlocked]
          exact h.held.congr (takes_same (by simp [hst]))
  · dsimp only at hstage
    cases hacquire : slot.lock.acquire calls.length with
    | mk lock got =>
      rw [hacquire] at hstage hsound
      cases got with
      | true =>
        obtain ⟨hopen, rfl, -⟩ := Lock.acquire_true hacquire
        obtain ⟨rfl, hst⟩ := Prod.mk.inj hstage
        refine ⟨Nat.succ_pos _, h.append_own hk (by simp [Call.live, hst]) rfl hsound
          (hline (by simp [Call.waits, hst])) ?_⟩
        have hheld := h.held
        rw [hopen] at hheld
        refine Held.take (n := calls.length) fun m t => ?_
        rw [takes_append]
        simp [hheld.nobody m t, hk, hst, htask, eq_comm]
      | false =>
        obtain ⟨hlocked, hids, -⟩ := Lock.acquire_false hacquire
        obtain ⟨rfl, hst⟩ := Prod.mk.inj hstage
        refine ⟨Nat.succ_pos _, h.append_own hk (by simp [Call.live, hst]) rfl hsound ?_ ?_⟩
        · intro m
          rw [show ({ slot with lock, users := slot.users + 1 } : Slot).lock.ids = _ from hids]
          simp [Call.waits, hst]
        · rw [show lock.locked = _ from hlocked]
          exact h.held.congr (takes_same (by simp [hst]))

/-- What a call does: it finds the key's slot, or makes it, and arrives there. -/
structure Calls (policy : Policy) (s s' : State κ) (task : Nat) (k : κ) (slot slot' : Slot)
    (o : Nat) (stage : Stage) : Prop where
  idle : ∀ c ∈ s.calls, c.task = task → c.waits = false
  tally : Tally s.calls k slot
  found : ∀ {o' : Nat}, s.slots k = some o' → o' = o ∧ s.heap[o']? = some slot
  fresh : s.slots k = none → slot = {}
  arrive : (slot', stage) =
    State.arrive policy { slot with users := slot.users + 1 } task s.calls.length
  calls : s'.calls = s.calls ++ [⟨task, k, o, stage, s.ahead task k, s.own task k⟩]
  slots : s'.slots k = some o
  heap : s'.heap[o]? = some slot'
  others : ∀ {k' : κ}, k' ≠ k → s'.slots k' = s.slots k'
  apart : ∀ {k' : κ} {o' : Nat}, k' ≠ k → s.slots k' = some o' →
    o' ≠ o ∧ s'.heap[o']? = s.heap[o']?
  same : ∀ {n : Nat} {c : Call κ}, s.calls[n]? = some c → c.live = true → c.key = k → c.slot = o

theorem calls (h : Kept s) {task : Nat} {k : κ} (hs' : s.call policy task k = some s') :
    ∃ slot slot' o stage, Calls policy s s' task k slot slot' o stage := by
  rw [State.call] at hs'
  split at hs'
  · cases hs'
  rename_i hidle
  obtain ⟨slot, hslot, htally, hcalls, hslots, hothers, hapart, hsame⟩ := h.entry_spec k
  dsimp only at hs'
  rw [hslot, Option.map_some, Option.some.injEq] at hs'
  subst hs'
  have hlt := (List.getElem?_eq_some_iff.mp hslot).1
  refine ⟨slot, _, (s.entry k).1, _, fun c hc htask => ?_, htally, fun {o'} hk => ?_, fun hk => ?_,
    rfl, rfl, hslots, List.getElem?_set_self hlt, hothers, fun {k' o'} hne hk' => ?_, hsame⟩
  · rw [Bool.not_eq_true, List.any_eq_false] at hidle
    simpa [htask] using hidle c hc
  · have heq : s.entry k = (o', s) := by simp [State.entry, hk]
    rw [heq] at hslot ⊢
    exact ⟨rfl, hslot⟩
  · simpa [State.entry, hk, eq_comm] using hslot
  · obtain ⟨hne', hheap⟩ := hapart hne hk'
    exact ⟨hne', (List.getElem?_set_ne (Ne.symm hne')).trans hheap⟩

theorem call (henter : ∀ {holder locked task}, policy.arrive holder locked task = .enter →
      holder = some task)
    (h : Kept s) {task : Nat} {k : κ} (hs' : s.call policy task k = some s') : Kept s' := by
  obtain ⟨slot, slot', o, stage, hcalls⟩ := h.calls hs'
  obtain ⟨hpos, htally⟩ := tally_arrive hcalls.tally (c := ⟨task, k, o, stage, s.ahead task k, s.own task k⟩)
    rfl rfl hcalls.arrive
  refine ⟨fun {n c} hc hlive => ?_, fun {k₁ k₂ o'} hk₁ hk₂ => ?_, fun {k' o'} hk' => ?_,
    fun {n c} hc hstage => ?_⟩
  · rw [hcalls.calls] at hc
    rcases Tasks.append_cases hc with ⟨-, rfl⟩ | hc
    · exact hcalls.slots
    · by_cases hkey : c.key = k
      · rw [hkey, hcalls.slots, hcalls.same hc hlive hkey]
      · rw [hcalls.others hkey]
        exact h.live hc hlive
  · by_cases hkey₁ : k₁ = k
    · by_cases hkey₂ : k₂ = k
      · rw [hkey₁, hkey₂]
      · rw [hcalls.others hkey₂] at hk₂
        rw [hkey₁, hcalls.slots] at hk₁
        exact absurd (Option.some.inj hk₁).symm (hcalls.apart hkey₂ hk₂).1
    · by_cases hkey₂ : k₂ = k
      · rw [hcalls.others hkey₁] at hk₁
        rw [hkey₂, hcalls.slots] at hk₂
        exact absurd (Option.some.inj hk₂).symm (hcalls.apart hkey₁ hk₁).1
      · rw [hcalls.others hkey₁] at hk₁
        rw [hcalls.others hkey₂] at hk₂
        exact h.inj hk₁ hk₂
  · by_cases hkey : k' = k
    · subst hkey
      rw [hcalls.slots] at hk'
      obtain rfl := Option.some.inj hk'
      exact ⟨slot', hcalls.heap, hpos, hcalls.calls ▸ htally⟩
    · rw [hcalls.others hkey] at hk'
      obtain ⟨other, hother, hpos', hrest⟩ := h.entry hk'
      refine ⟨other, (hcalls.apart hkey hk').2.trans hother, hpos', ?_⟩
      rw [hcalls.calls]
      exact hrest.append_other (Ne.symm hkey)
  · rw [hcalls.calls] at hc ⊢
    rcases Tasks.append_cases hc with ⟨rfl, rfl⟩ | hc
    · -- only the holder walks straight in
      obtain rfl : stage = .inside .nested := hstage
      have hholder : slot.holder = some task := by
        have harrive := hcalls.arrive
        rw [State.arrive] at harrive
        split at harrive
        · rename_i hpolicy
          exact henter hpolicy
        all_goals
          dsimp only at harrive
          split at harrive <;> cases (Prod.mk.inj harrive).2
      have hlocked : slot.lock.locked = true := by
        by_contra hopen
        rw [hcalls.tally.held.free (by simpa using hopen)] at hholder
        cases hholder
      obtain ⟨m, t, htakes⟩ := hcalls.tally.held.taken hlocked
      obtain rfl : t = task := by
        have := (hcalls.tally.held.held htakes).2
        rw [hholder] at this
        exact (Option.some.inj this).symm
      have hlt : m < s.calls.length := by
        obtain ⟨d, hd, -⟩ := htakes
        exact (List.getElem?_eq_some_iff.mp hd).1
      exact ⟨m, hlt, takes_append.mpr (.inl htakes)⟩
    · obtain ⟨m, hlt, htakes⟩ := h.nested hc hstage
      exact ⟨m, hlt, takes_append.mpr (.inl htakes)⟩

theorem start : Kept (system (κ := κ) policy).start where
  live hc := by cases hc
  inj hk := by cases hk
  entry hk := by cases hk
  nested hc := by cases hc

/-- Under a policy that lets only the holder walk straight in, and drops an unused slot
whose lock is open, every step keeps the invariant. -/
theorem step (henter : ∀ {holder locked task}, policy.arrive holder locked task = .enter →
      holder = some task)
    (hdrops : policy.drops false = true) {e : Event κ} (h : Kept s)
    (hs' : s.step policy e = some s') : Kept s' := by
  cases e with
  | call task k => exact h.call henter hs'
  | turn n =>
    obtain ⟨c, hc, hs'⟩ := Option.bind_eq_some_iff.mp hs'
    obtain ⟨slot, hslot, hs'⟩ := Option.bind_eq_some_iff.mp hs'
    exact h.turn hdrops hc hslot hs'
  | cancel n =>
    obtain ⟨c, hc, hs'⟩ := Option.bind_eq_some_iff.mp hs'
    obtain ⟨slot, hslot, hs'⟩ := Option.bind_eq_some_iff.mp hs'
    exact h.cancel hc hslot hs'
  | leave n =>
    obtain ⟨c, hc, hs'⟩ := Option.bind_eq_some_iff.mp hs'
    obtain ⟨slot, hslot, hs'⟩ := Option.bind_eq_some_iff.mp hs'
    exact h.leave hdrops hc hslot hs'

end Kept

/-! ## what a step changes -/

/-- A step is a call that comes, or one that goes on. -/
structure Goes (s s' : State κ) (n : Nat) (c : Call κ) (slot slot' : Slot) (stage : Stage) :
    Prop where
  found : s.calls[n]? = some c
  holds : s.heap[c.slot]? = some slot
  change : Change n c slot slot' stage
  calls : s'.calls = s.calls.set n { c with stage }
  heap : s'.heap = s.heap.set c.slot slot'
  slots : ∀ {k : κ} {o : Nat}, s'.slots k = some o → s.slots k = some o

theorem goes_finish {s : State κ} {n : Nat} {c : Call κ} {slot slot' : Slot} {how : Option How}
    {policy : Policy} (hc : s.calls[n]? = some c) (hslot : s.heap[c.slot]? = some slot)
    (hchange : Change n c slot { slot' with users := slot'.users - 1 } (.ended how)) :
    Goes s (s.finish policy n c slot' how) n c slot { slot' with users := slot'.users - 1 }
      (.ended how) := by
  rw [State.finish]
  dsimp only
  split
  · exact ⟨hc, hslot, hchange, rfl, rfl, fun hk => (Kept.update_none hk).2⟩
  · exact ⟨hc, hslot, hchange, rfl, rfl, id⟩

theorem step_cases {policy : Policy} {s s' : State κ} {e : Event κ}
    (hs' : s.step policy e = some s') :
    (∃ task k, e = .call task k ∧ s.call policy task k = some s') ∨
      ∃ n c slot slot' stage, Goes s s' n c slot slot' stage := by
  cases e with
  | call task k => exact .inl ⟨task, k, rfl, hs'⟩
  | turn n =>
    right
    obtain ⟨c, hc, hs'⟩ := Option.bind_eq_some_iff.mp hs'
    obtain ⟨slot, hslot, hs'⟩ := Option.bind_eq_some_iff.mp hs'
    rw [State.turn] at hs'
    split at hs'
    · rename_i looks hstage
      obtain ⟨⟨lock, got⟩, hturn, rfl⟩ := Option.map_eq_some_iff.mp hs'
      cases got with
      | true =>
        cases looks with
        | true => exact ⟨n, c, slot, _, _, hc, hslot, .looked hstage hturn, rfl, rfl, id⟩
        | false => exact ⟨n, c, slot, _, _, hc, hslot, .took hstage hturn, rfl, rfl, id⟩
      | false => exact ⟨n, c, slot, _, _, goes_finish hc hslot (.quit hstage hturn)⟩
    · cases hs'
    · cases hs'
  | cancel n =>
    right
    obtain ⟨c, hc, hs'⟩ := Option.bind_eq_some_iff.mp hs'
    obtain ⟨slot, hslot, hs'⟩ := Option.bind_eq_some_iff.mp hs'
    rw [State.cancel] at hs'
    split at hs'
    · rename_i looks hstage
      obtain rfl := Option.some.inj hs'
      exact ⟨n, c, slot, _, _, hc, hslot, .cancelled hstage, rfl, rfl, id⟩
    · cases hs'
    · cases hs'
  | leave n =>
    right
    obtain ⟨c, hc, hs'⟩ := Option.bind_eq_some_iff.mp hs'
    obtain ⟨slot, hslot, hs'⟩ := Option.bind_eq_some_iff.mp hs'
    rw [State.leave] at hs'
    split at hs'
    · rename_i how hstage
      split at hs'
      · cases hs'
      split at hs'
      · rename_i htaken
        subst htaken
        obtain rfl := Option.some.inj hs'
        exact ⟨n, c, slot, _, _, goes_finish hc hslot (.gave hstage)⟩
      · rename_i hhow
        obtain rfl := Option.some.inj hs'
        exact ⟨n, c, slot, _, _, goes_finish hc hslot (.left hstage hhow)⟩
    · cases hs'
    · cases hs'

omit [DecidableEq κ] in
/-- So nobody gets into the queue. -/
theorem Goes.queued {s s' : State κ} {n : Nat} {c : Call κ} {slot slot' : Slot} {stage : Stage}
    (h : Goes s s' n c slot slot' stage) {m : Nat} {d : Call κ} (hd : s'.calls[m]? = some d)
    (hqueued : s'.queued m d = true) : s.calls[m]? = some d ∧ s.queued m d = true := by
  simp only [State.queued, Bool.and_eq_true, decide_eq_true_eq, Option.any_eq_true] at *
  obtain ⟨hstage, sl, hsl, hm⟩ := hqueued
  have hold : s.calls[m]? = some d := by
    rw [h.calls] at hd
    rcases Tasks.set_cases hd with ⟨rfl, rfl⟩ | ⟨-, hd⟩
    · have hsame : c.stage = stage := by
        obtain rfl : stage = .waiting false := hstage
        cases h.change with
        | cancelled hc => exact hc
      rw [← hsame]
      exact h.found
    · exact hd
  refine ⟨hold, hstage, ?_⟩
  by_cases hslot : d.slot = c.slot
  · have hlt := (List.getElem?_eq_some_iff.mp h.holds).1
    rw [h.heap, hslot, List.getElem?_set_self hlt] at hsl
    obtain rfl := Option.some.inj hsl
    exact ⟨slot, by rw [hslot]; exact h.holds, h.change.queued hm⟩
  · rw [h.heap, List.getElem?_set_ne (Ne.symm hslot)] at hsl
    exact ⟨sl, hsl, hm⟩

/-! ## what the invariant says -/

namespace Kept

variable {s : State κ} {n : Nat} {c : Call κ}

/-- Who works on the key works for the task that has the lock. -/
theorem works (h : Kept s) (hc : s.calls[n]? = some c) (hworks : c.works = true) :
    ∃ m, Takes s.calls c.key m c.task := by
  cases hstage : c.stage with
  | waiting looks => simp [Call.works, hstage] at hworks
  | ended how => simp [Call.works, hstage] at hworks
  | inside how =>
    cases how with
    | taken => exact ⟨n, c, hc, rfl, hstage, rfl⟩
    | nested =>
      obtain ⟨m, -, htakes⟩ := h.nested hc hstage
      exact ⟨m, htakes⟩
    | looked => simp [Call.works, How.works, hstage] at hworks

/-- One task at a time works on a key. -/
theorem exclusive (h : Kept s) {m : Nat} {d : Call κ} (hc : s.calls[n]? = some c)
    (hd : s.calls[m]? = some d) (hkey : c.key = d.key) (hcworks : c.works = true)
    (hdworks : d.works = true) : c.task = d.task := by
  obtain ⟨i, hi⟩ := h.works hc hcworks
  obtain ⟨j, hj⟩ := h.works hd hdworks
  have hlive : c.live = true := by
    cases hstage : c.stage with
    | ended how => simp [Call.works, hstage] at hcworks
    | waiting looks => simp [Call.live, hstage]
    | inside how => simp [Call.live, hstage]
  obtain ⟨slot, -, -, htally⟩ := h.entry (h.live hc hlive)
  have hheld := (htally.held.held hi).2
  rw [hkey] at htally
  rw [(htally.held.held hj).2] at hheld
  exact (Option.some.inj hheld).symm

/-- A key nobody uses has no entry. -/
theorem idle (h : Kept s) {k : κ} (hnone : ∀ c ∈ s.calls, c.key = k → c.live = false) :
    s.slots k = none := by
  by_contra hk
  obtain ⟨o, hk⟩ := Option.ne_none_iff_exists'.mp hk
  obtain ⟨slot, -, hpos, htally⟩ := h.entry hk
  rw [htally.users, List.countP_pos_iff] at hpos
  obtain ⟨c, hc, huses⟩ := hpos
  simp only [Call.uses, Bool.and_eq_true, decide_eq_true_eq] at huses
  rw [hnone c hc huses.2] at huses
  cases huses.1

/-- Who has taken the lock has it, in the slot that the map has for the key. -/
theorem taken (h : Kept s) (hc : s.calls[n]? = some c) (hstage : c.stage = .inside .taken) :
    ∃ slot, s.slots c.key = some c.slot ∧ s.heap[c.slot]? = some slot ∧
      slot.lock.locked = true ∧ slot.holder = some c.task := by
  have hentry := h.live hc (by simp [Call.live, hstage])
  obtain ⟨slot, hslot, -, htally⟩ := h.entry hentry
  exact ⟨slot, hentry, hslot, htally.held.held ⟨c, hc, rfl, hstage, rfl⟩⟩

end Kept

end KeyedLocks
