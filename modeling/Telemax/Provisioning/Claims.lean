import Telemax.Provisioning.Coordinator
import Telemax.Routing.KeyedLock

/-!
# Telemax.Provisioning.Claims

`ProvisioningCoordinator.claim` over any number of tasks and contacts: one walk per
contact, and whoever comes while it is under way is told so once it is over.  The
lock alone says who walks; who is *about* to walk is seen from it only while it is
locked.
-/

namespace Telemax.Provisioning.Claims

open AsyncLock KeyedLocks

/-- The holder walks straight in; whoever finds the lock locked waits its turn and gives
it straight back; an unused slot is dropped while its lock is open. -/
def claim : Policy where
  arrive holder locked here :=
    if holder = some here then .enter else if locked then .look else .acquire
  drops locked := !locked

abbrev State := KeyedLocks.State ContactKey

abbrev Call := KeyedLocks.Call ContactKey

abbrev Event := KeyedLocks.Event ContactKey

abbrev Slot := KeyedLocks.Slot

abbrev Stage := KeyedLocks.Stage

abbrev system : Run.Sys State Event := KeyedLocks.system claim

/-- Whether the block was entered, and with what. -/
def given (c : Call) : Option Bool :=
  match c.stage with
  | .inside how | .ended (some how) => some how.works
  | .waiting _ | .ended none => none

/-- No task holds the contact's lock. -/
def free (s : State) (k : ContactKey) : Bool :=
  ((s.slots k).bind (s.heap[·]?)).all fun slot : Slot => !slot.lock.locked

/-- The other tasks that are queued to enter a block that works. -/
def queuedOthers (s : State) (task : Nat) (k : ContactKey) : List Nat :=
  s.those fun n c => c.task ≠ task && c.key = k && s.queued n c

/-- No claim comes while the lock is free and another task is queued to enter. -/
def guarded (s : State) : Event → Bool
  | .call task k => !(free s k && !(queuedOthers s task k).isEmpty)
  | .turn _ | .cancel _ | .leave _ => true

structure OneWalk (s : State) : Prop where
  exclusive : ∀ {m n : Nat} {c d : Call}, s.calls[m]? = some c → s.calls[n]? = some d →
    c.key = d.key → c.works = true → d.works = true → c.task = d.task
  /-- Who came while another was inside, or queued to enter, is not given the work, -/
  refused : ∀ {n : Nat} {c : Call}, s.calls[n]? = some c → c.ahead ≠ [] →
    given c ≠ some true
  /-- and is told so when that block has ended. -/
  after : ∀ {n : Nat} {c : Call}, s.calls[n]? = some c → given c = some false →
    ∀ b ∈ c.ahead, ∃ d, s.calls[b]? = some d ∧ d.live = false
  /-- A nested claim by the holder is given the work at once, -/
  nested : ∀ {n : Nat} {c : Call}, s.calls[n]? = some c → c.own = true →
    given c = some true
  /-- and as long as the outer block lasts its task has the contact's lock. -/
  holds : ∀ {n : Nat} {c : Call}, s.calls[n]? = some c → c.stage = .inside .taken →
    ∃ slot, s.slots c.key = some c.slot ∧ s.heap[c.slot]? = some slot ∧
      slot.lock.locked = true ∧ slot.holder = some c.task
  idle : ∀ {k : ContactKey}, (∀ c ∈ s.calls, c.key = k → c.live = false) → s.slots k = none

/-! ## who is queued -/

/-- What is kept where no claim comes at the wrong moment. -/
structure Turns (s : State) : Prop where
  /-- Nobody is queued to enter while the lock is locked, -/
  locked : ∀ {k : ContactKey} {o : Nat} {slot : Slot}, s.slots k = some o →
    s.heap[o]? = some slot → slot.lock.locked = true →
    ∀ {n : Nat} {c : Call}, s.calls[n]? = some c → c.key = k → s.queued n c = false
  /-- and at most one is while it is open. -/
  one : ∀ {m n : Nat} {c d : Call}, s.calls[m]? = some c → s.calls[n]? = some d →
    c.key = d.key → s.queued m c = true → s.queued n d = true → m = n
  looks : ∀ {n : Nat} {c : Call}, s.calls[n]? = some c → c.ahead ≠ [] →
    c.stage = .waiting true ∨ c.stage = .inside .looked ∨ c.stage = .ended none ∨
      c.stage = .ended (some .looked)
  ahead : ∀ {n : Nat} {c : Call}, s.calls[n]? = some c → ∀ b ∈ c.ahead,
    b < n ∧ ∃ d, s.calls[b]? = some d ∧ d.key = c.key ∧ d.stage ≠ .waiting true ∧
      d.stage ≠ .inside .looked ∧ (given c = some false → d.live = false)
  own : ∀ {n : Nat} {c : Call}, s.calls[n]? = some c → c.own = true →
    c.stage = .inside .nested ∨ c.stage = .ended (some .nested)

theorem oneWalk {s : State} (hkept : KeyedLocks.Kept s) (h : Turns s) : OneWalk s where
  exclusive := hkept.exclusive
  refused hc hahead := by
    rcases h.looks hc hahead with hstage | hstage | hstage | hstage <;>
      simp [given, hstage, How.works]
  after hc hgiven b hb := by
    obtain ⟨-, d, hd, -, -, -, hover⟩ := h.ahead hc b hb
    exact ⟨d, hd, hover hgiven⟩
  nested hc hown := by
    rcases h.own hc hown with hstage | hstage <;> simp [given, hstage, How.works]
  holds := hkept.taken
  idle := hkept.idle

theorem mem_those {s : State} {p : Nat → Call → Bool} {n : Nat} :
    n ∈ s.those p ↔ ∃ c, s.calls[n]? = some c ∧ p n c = true := by
  rw [KeyedLocks.State.those, List.mem_filter, Option.any_eq_true]
  constructor
  · rintro ⟨-, c, hc, hp⟩
    exact ⟨c, hc, hp⟩
  · rintro ⟨c, hc, hp⟩
    exact ⟨List.mem_range.mpr (List.getElem?_eq_some_iff.mp hc).1, c, hc, hp⟩

theorem queued_stage {s : State} {n : Nat} {c : Call} (h : s.queued n c = true) :
    c.stage = .waiting false ∧ c.live = true ∧ c.waits = true := by
  simp only [KeyedLocks.State.queued, Bool.and_eq_true, decide_eq_true_eq] at h
  exact ⟨h.1, by simp [Call.live, h.1], by simp [Call.waits, h.1]⟩

namespace Turns

variable {s s' : State} {n : Nat} {c : Call} {slot slot' : Slot}
  {stage : Stage}

/-- A lock comes to be locked only for the one that was queued to enter. -/
theorem locked_change (h : Change n c slot slot' stage) (hlocked : slot'.lock.locked = true) :
    slot.lock.locked = true ∨ c.stage = .waiting false ∧ slot.lock.queued n = true ∧
      ∀ m, slot'.lock.queued m = true → m ≠ n := by
  cases h with
  | looked _ _ =>
    rw [Lock.release_locked] at hlocked
    cases hlocked
  | took hstage hturn =>
    obtain ⟨-, -, hqueued, hgot⟩ := Lock.turn_eq hturn
    exact .inr ⟨hstage, hgot rfl, fun m hm => (hqueued m hm).1⟩
  | quit _ hturn =>
    obtain ⟨-, hsame, -⟩ := Lock.turn_eq hturn
    rw [hsame, Bool.or_false] at hlocked
    exact .inl hlocked
  | cancelled _ => exact .inl hlocked
  | left _ _ => exact .inl hlocked
  | gave _ =>
    rw [Lock.release_locked] at hlocked
    cases hlocked

/-- Whoever has its turn comes after all that were inside or in front. -/
theorem over_of_turn (hkept : KeyedLocks.Kept s) (hc : s.calls[n]? = some c)
    (hslot : s.heap[c.slot]? = some slot) (hlive : c.live = true) {lock : Lock}
    (hturn : slot.lock.turn n = some (lock, true)) {b : Nat} {d : Call}
    (hd : s.calls[b]? = some d) (hlt : b < n) (hkey : d.key = c.key)
    (hlooks : d.stage ≠ .inside .looked) : d.live = false := by
  obtain ⟨-, htally⟩ := hkept.tally hc hlive hslot
  obtain ⟨hopen, -, -, hfirst⟩ := htally.sound.turn_first hturn
  have hheld := htally.held
  rw [hopen] at hheld
  cases hstage : d.stage with
  | ended how => simp [Call.live, hstage]
  | waiting looks =>
    have hmem : b ∈ slot.lock.ids := (htally.line b).mpr ⟨d, hd, hkey, by simp [Call.waits, hstage]⟩
    have := hfirst b hmem
    omega
  | inside how =>
    have hworks : d.works = true := by
      cases how with
      | looked => exact absurd hstage hlooks
      | taken => simp [Call.works, How.works, hstage]
      | nested => simp [Call.works, How.works, hstage]
    obtain ⟨m, htakes⟩ := hkept.works hd hworks
    rw [hkey] at htakes
    exact absurd htakes (hheld.nobody _ _)

/-! ### a call goes on -/

theorem locked_goes (hkept : KeyedLocks.Kept s) (h : Turns s)
    (hgoes : Goes s s' n c slot slot' stage) {k : ContactKey} {o : Nat} {sl : Slot}
    (hk : s'.slots k = some o) (hsl : s'.heap[o]? = some sl) (hlocked : sl.lock.locked = true)
    {m : Nat} {d : Call} (hd : s'.calls[m]? = some d) (hkey : d.key = k) :
    s'.queued m d = false := by
  have hentry := hkept.live hgoes.found hgoes.change.live
  have hlt := (List.getElem?_eq_some_iff.mp hgoes.holds).1
  by_contra hqueued
  obtain ⟨hold, hqueued'⟩ := hgoes.queued hd (by simpa using hqueued)
  have hk' := hgoes.slots hk
  by_cases ho : o = c.slot
  · subst ho
    rw [hgoes.heap, List.getElem?_set_self hlt] at hsl
    obtain rfl := Option.some.inj hsl
    obtain rfl := hkept.inj hk' hentry
    rcases locked_change hgoes.change hlocked with hlocked | ⟨hstage, hn, hother⟩
    · rw [h.locked hk' hgoes.holds hlocked hold hkey] at hqueued'
      cases hqueued'
    · -- the one that took the lock was the only one in the queue
      have hqn : s.queued n c = true := by
        simp [KeyedLocks.State.queued, hstage, hgoes.holds, hn]
      have hmn := h.one hold hgoes.found hkey hqueued' hqn
      have hdslot : d.slot = c.slot := by
        have := hkept.live hold (queued_stage hqueued').2.1
        rw [hkey, hentry] at this
        exact (Option.some.inj this).symm
      refine hother m ?_ hmn
      simp only [Bool.not_eq_false, KeyedLocks.State.queued, Bool.and_eq_true, hdslot, hgoes.heap,
        List.getElem?_set_self hlt] at hqueued
      simpa using hqueued.2
  · rw [hgoes.heap, List.getElem?_set_ne (Ne.symm ho)] at hsl
    rw [h.locked hk' hsl hlocked hold hkey] at hqueued'
    cases hqueued'

/-- Whoever found another inside or queued still only looks. -/
theorem looks_goes (h : Turns s) (hgoes : Goes s s' n c slot slot' stage) (hahead : c.ahead ≠ []) :
    stage = .waiting true ∨ stage = .inside .looked ∨ stage = .ended none ∨
      stage = .ended (some .looked) := by
  have hold := h.looks hgoes.found hahead
  cases hgoes.change with
  | looked _ _ => exact .inr (.inl rfl)
  | took hstage _ => simp [hstage] at hold
  | quit _ _ => exact .inr (.inr (.inl rfl))
  | cancelled hstage => simpa [hstage] using hold
  | left hstage _ => simpa [hstage] using hold
  | gave hstage => simp [hstage] at hold

theorem own_goes (h : Turns s) (hgoes : Goes s s' n c slot slot' stage) (hown : c.own = true) :
    stage = .inside .nested ∨ stage = .ended (some .nested) := by
  have hold := h.own hgoes.found hown
  cases hgoes.change with
  | looked hstage _ => simp [hstage] at hold
  | took hstage _ => simp [hstage] at hold
  | quit hstage _ => simp [hstage] at hold
  | cancelled hstage => simp [hstage] at hold
  | left hstage _ => simpa [hstage] using hold
  | gave hstage => simp [hstage] at hold

/-- A call that is told the work is another's comes after all that were in front of it. -/
theorem over_goes (hkept : KeyedLocks.Kept s) (h : Turns s)
    (hgoes : Goes s s' n c slot slot' stage) {b : Nat} (hb : b ∈ c.ahead)
    (hgiven : given { c with stage } = some false) :
    ∃ e, s.calls[b]? = some e ∧ e.live = false := by
  obtain ⟨hlt, e, he, hkey, -, hlooked, hover⟩ := h.ahead hgoes.found b hb
  refine ⟨e, he, ?_⟩
  cases hgoes.change with
  | looked _ hturn =>
    exact over_of_turn hkept hgoes.found hgoes.holds hgoes.change.live hturn he hlt hkey hlooked
  | took _ _ => simp [given, How.works] at hgiven
  | quit _ _ => simp [given] at hgiven
  | cancelled _ => simp [given] at hgiven
  | left hstage _ => exact hover (by simpa [given, hstage] using hgiven)
  | gave _ => simp [given, How.works] at hgiven

/-- Who does not wait to look goes on to neither stage of looking. -/
theorem stage_goes (hgoes : Goes s s' n c slot slot' stage) (hwaiting : c.stage ≠ .waiting true) :
    stage ≠ .waiting true ∧ stage ≠ .inside .looked := by
  cases hgoes.change with
  | looked hstage _ => exact absurd hstage hwaiting
  | cancelled hstage => exact ⟨hstage ▸ hwaiting, by simp⟩
  | took | quit | left | gave => simp

theorem goes (hkept : KeyedLocks.Kept s) (h : Turns s) (hgoes : Goes s s' n c slot slot' stage) :
    Turns s' := by
  refine ⟨locked_goes hkept h hgoes, fun hc hd hkey hcq hdq => ?_, fun {m d} hd hahead => ?_,
    fun {m d} hd b hb => ?_, fun {m d} hd hown => ?_⟩
  · obtain ⟨hc, hcq⟩ := hgoes.queued hc hcq
    obtain ⟨hd, hdq⟩ := hgoes.queued hd hdq
    exact h.one hc hd hkey hcq hdq
  · rw [hgoes.calls] at hd
    rcases Tasks.set_cases hd with ⟨rfl, rfl⟩ | ⟨-, hd⟩
    · exact looks_goes h hgoes hahead
    · exact h.looks hd hahead
  · rw [hgoes.calls] at hd
    rcases Tasks.set_cases hd with ⟨rfl, rfl⟩ | ⟨hm, hd⟩
    · obtain ⟨hbm, e, he, hkey, hwaiting, hlooked, -⟩ := h.ahead hgoes.found b hb
      refine ⟨hbm, e, ?_, hkey, hwaiting, hlooked, fun hgiven => ?_⟩
      · rw [hgoes.calls, List.getElem?_set_ne (by omega)]
        exact he
      · obtain ⟨e', he', hover⟩ := over_goes hkept h hgoes hb hgiven
        obtain rfl := Option.some.inj (he.symm.trans he')
        exact hover
    · obtain ⟨hbm, e, he, hkey, hwaiting, hlooked, hover⟩ := h.ahead hd b hb
      refine ⟨hbm, ?_⟩
      by_cases hbn : b = n
      · subst hbn
        obtain rfl := Option.some.inj (hgoes.found.symm.trans he)
        obtain ⟨hwaiting', hlooked'⟩ := stage_goes hgoes hwaiting
        refine ⟨{ c with stage }, ?_, hkey, hwaiting', hlooked', fun hgiven => ?_⟩
        · rw [hgoes.calls]
          exact List.getElem?_set_self (List.getElem?_eq_some_iff.mp hgoes.found).1
        · have hlive := hgoes.change.live
          rw [hover hgiven] at hlive
          cases hlive
      · refine ⟨e, ?_, hkey, hwaiting, hlooked, hover⟩
        rw [hgoes.calls, List.getElem?_set_ne (Ne.symm hbn)]
        exact he
  · rw [hgoes.calls] at hd
    rcases Tasks.set_cases hd with ⟨rfl, rfl⟩ | ⟨-, hd⟩
    · exact own_goes h hgoes hown
    · exact h.own hd hown

/-- How a claim arrives at the contact's slot. -/
inductive Arrives (task id : Nat) (slot slot' : Slot) : Stage → Prop
  | nested (hholder : slot.holder = some task) (hsame : slot'.lock = slot.lock) :
      Arrives task id slot slot' (.inside .nested)
  | looks (hother : slot.holder ≠ some task) (hlocked : slot.lock.locked = true)
      (hqueued : ∀ c, slot'.lock.queued c = (slot.lock.queued c || id == c)) :
      Arrives task id slot slot' (.waiting true)
  | took (hfree : slot.holder = none) (hopen : slot.lock.locked = false)
      (hqueued : ∀ c, slot'.lock.queued c = false) : Arrives task id slot slot' (.inside .taken)
  | queued (hfree : slot.holder = none) (hopen : slot.lock.locked = false)
      (hopen' : slot'.lock.locked = false)
      (hqueued : ∀ c, slot'.lock.queued c = (slot.lock.queued c || id == c)) :
      Arrives task id slot slot' (.waiting false)

theorem arrives {task id : Nat} (hopen : slot.lock.locked = false → slot.holder = none)
    (h : (slot', stage) = KeyedLocks.State.arrive claim { slot with users := slot.users + 1 } task id) :
    Arrives task id slot slot' stage := by
  simp only [KeyedLocks.State.arrive, claim] at h
  by_cases hholder : slot.holder = some task
  · rw [if_pos hholder] at h
    obtain ⟨rfl, rfl⟩ := Prod.mk.inj h
    exact .nested hholder rfl
  · rw [if_neg hholder] at h
    cases hacquire : slot.lock.acquire id with
    | mk lock got =>
      cases hlocked : slot.lock.locked with
      | true =>
        rw [hlocked, if_pos rfl, hacquire] at h
        cases got with
        | true => exact absurd ((Lock.acquire_true hacquire).1.symm.trans hlocked) (by simp)
        | false =>
          obtain ⟨rfl, rfl⟩ := Prod.mk.inj h
          exact .looks hholder hlocked (Lock.acquire_false hacquire).2.2
      | false =>
        rw [hlocked, if_neg (by simp), hacquire] at h
        cases got with
        | true =>
          obtain ⟨-, rfl, hqueued⟩ := Lock.acquire_true hacquire
          obtain ⟨rfl, rfl⟩ := Prod.mk.inj h
          exact .took (hopen hlocked) hlocked hqueued
        | false =>
          obtain ⟨hsame, -, hqueued⟩ := Lock.acquire_false hacquire
          obtain ⟨rfl, rfl⟩ := Prod.mk.inj h
          exact .queued (hopen hlocked) hlocked (hsame.trans hlocked) hqueued

/-! ### a call comes, at a moment that is not the wrong one -/

section

variable {task o : Nat} {k : ContactKey}

/-- A lock that is locked was there before. -/
theorem entry_of_locked (hcalls : Kept.Calls claim s s' task k slot slot' o stage)
    (hlocked : slot.lock.locked = true) : s.slots k = some o ∧ s.heap[o]? = some slot := by
  cases hk : s.slots k with
  | none =>
    rw [hcalls.fresh hk] at hlocked
    cases hlocked
  | some o' =>
    obtain ⟨rfl, hslot⟩ := hcalls.found hk
    exact ⟨rfl, hslot⟩

/-- Nobody else is queued while the lock is open. -/
theorem nobody_queued (hcalls : Kept.Calls claim s s' task k slot slot' o stage)
    (hguard : guarded s (.call task k) = true) (hopen : slot.lock.locked = false) {m : Nat}
    {d : Call} (hd : s.calls[m]? = some d) (hkey : d.key = k) : s.queued m d = false := by
  by_contra hqueued
  have hqueued : s.queued m d = true := by simpa using hqueued
  have hother : d.task ≠ task := fun htask => by
    have := hcalls.idle d (List.mem_of_getElem? hd) htask
    rw [(queued_stage hqueued).2.2] at this
    cases this
  have hfree : free s k = true := by
    rw [free]
    cases hk : s.slots k with
    | none => rfl
    | some o' =>
      obtain ⟨rfl, hslot⟩ := hcalls.found hk
      simp [hslot, hopen]
  simp only [guarded, hfree, Bool.true_and, Bool.not_not, List.isEmpty_iff, queuedOthers,
    KeyedLocks.State.those, List.filter_eq_nil_iff] at hguard
  have := hguard m (List.mem_range.mpr (List.getElem?_eq_some_iff.mp hd).1)
  simp [hd, hother, hkey, hqueued] at this

theorem calls_cases (hcalls : Kept.Calls claim s s' task k slot slot' o stage) {m : Nat} {d : Call}
    (hd : s'.calls[m]? = some d) :
    m = s.calls.length ∧ d = ⟨task, k, o, stage, s.ahead task k, s.own task k⟩ ∨
      s.calls[m]? = some d := by
  rw [hcalls.calls] at hd
  exact Tasks.append_cases hd

theorem calls_keep (hcalls : Kept.Calls claim s s' task k slot slot' o stage) {m : Nat} {d : Call}
    (hd : s.calls[m]? = some d) : s'.calls[m]? = some d := by
  rw [hcalls.calls, List.getElem?_append_left (List.getElem?_eq_some_iff.mp hd).1]
  exact hd

/-- Whoever was there and is queued was queued. -/
theorem queued_of_comes (hkept : KeyedLocks.Kept s)
    (hcalls : Kept.Calls claim s s' task k slot slot' o stage)
    (harrives : Arrives task s.calls.length slot slot' stage) {m : Nat} {d : Call}
    (hd : s.calls[m]? = some d) (hqueued : s'.queued m d = true) : s.queued m d = true := by
  obtain ⟨hstage, hdlive, -⟩ := queued_stage hqueued
  have hlt := (List.getElem?_eq_some_iff.mp hd).1
  have hentry := hkept.live hd hdlive
  by_cases hkey : d.key = k
  · rw [hkey] at hentry
    obtain ⟨hslot, hheap⟩ := hcalls.found hentry
    simp only [KeyedLocks.State.queued, hstage, decide_true, Bool.true_and, hslot, hcalls.heap]
      at hqueued
    simp only [KeyedLocks.State.queued, hstage, decide_true, Bool.true_and, hheap]
    have hne : (s.calls.length == m) = false := by simp; omega
    cases harrives with
    | nested _ hsame => simpa [hsame] using hqueued
    | looks _ _ hsame => simpa [hsame, hne] using hqueued
    | took _ _ hnone => simp [hnone] at hqueued
    | queued _ _ _ hsame => simpa [hsame, hne] using hqueued
  · obtain ⟨-, hheap⟩ := hcalls.apart hkey hentry
    simpa [KeyedLocks.State.queued, hheap] using hqueued

/-- Who finds another inside or queued only looks. -/
theorem stage_of_ahead (hkept : KeyedLocks.Kept s) (h : Turns s)
    (hcalls : Kept.Calls claim s s' task k slot slot' o stage)
    (harrives : Arrives task s.calls.length slot slot' stage)
    (hguard : guarded s (.call task k) = true) (hahead : s.ahead task k ≠ []) :
    stage = .waiting true := by
  obtain ⟨b, hb⟩ := List.exists_mem_of_ne_nil _ hahead
  obtain ⟨d, hd, htest⟩ := mem_those.mp hb
  simp only [Bool.and_eq_true, decide_eq_true_eq, Bool.or_eq_true, ne_eq] at htest
  obtain ⟨⟨hother, hkey⟩, hin⟩ := htest
  have hlocked : slot.lock.locked = true ∧ slot.holder ≠ some task := by
    rcases hin with hworks | hqueued
    · obtain ⟨m, htakes⟩ := hkept.works hd hworks
      rw [hkey] at htakes
      obtain ⟨hlocked, hholder⟩ := hcalls.tally.held.held htakes
      exact ⟨hlocked, by simpa [hholder] using hother⟩
    · exfalso
      cases hlocked : slot.lock.locked with
      | true =>
        obtain ⟨hk, hslot⟩ := entry_of_locked hcalls hlocked
        rw [h.locked hk hslot hlocked hd hkey] at hqueued
        cases hqueued
      | false =>
        rw [nobody_queued hcalls hguard hlocked hd hkey] at hqueued
        cases hqueued
  cases harrives with
  | nested hholder _ => exact absurd hholder hlocked.2
  | looks _ _ _ => rfl
  | took _ hopen _ =>
    rw [hlocked.1] at hopen
    cases hopen
  | queued _ hopen _ _ =>
    rw [hlocked.1] at hopen
    cases hopen

/-- Where the lock is locked once the call has come, nobody is queued to enter. -/
theorem not_queued_of_comes (h : Turns s) (hcalls : Kept.Calls claim s s' task k slot slot' o stage)
    (harrives : Arrives task s.calls.length slot slot' stage)
    (hguard : guarded s (.call task k) = true) (hlocked : slot'.lock.locked = true) :
    stage ≠ .waiting false ∧ ∀ {m : Nat} {d : Call}, s.calls[m]? = some d → d.key = k →
      s.queued m d = false := by
  cases harrives with
  | nested _ hsame =>
    have hwas : slot.lock.locked = true := hsame ▸ hlocked
    obtain ⟨hk, hslot⟩ := entry_of_locked hcalls hwas
    exact ⟨nofun, h.locked hk hslot hwas⟩
  | looks _ hwas _ =>
    obtain ⟨hk, hslot⟩ := entry_of_locked hcalls hwas
    exact ⟨nofun, h.locked hk hslot hwas⟩
  | took _ hopen _ => exact ⟨nofun, nobody_queued hcalls hguard hopen⟩
  | queued _ _ hopen' _ =>
    rw [hopen'] at hlocked
    cases hlocked

theorem locked_comes (hkept : KeyedLocks.Kept s) (h : Turns s)
    (hcalls : Kept.Calls claim s s' task k slot slot' o stage)
    (harrives : Arrives task s.calls.length slot slot' stage)
    (hguard : guarded s (.call task k) = true) {k' : ContactKey} {o' : Nat} {sl : Slot}
    (hk : s'.slots k' = some o') (hsl : s'.heap[o']? = some sl) (hlocked : sl.lock.locked = true)
    {m : Nat} {d : Call} (hd : s'.calls[m]? = some d) (hkey : d.key = k') :
    s'.queued m d = false := by
  by_contra hqueued
  have hqueued : s'.queued m d = true := by simpa using hqueued
  by_cases hk' : k' = k
  · subst hk'
    obtain rfl := Option.some.inj (hcalls.slots.symm.trans hk)
    obtain rfl := Option.some.inj (hcalls.heap.symm.trans hsl)
    obtain ⟨hstage, hnobody⟩ := not_queued_of_comes h hcalls harrives hguard hlocked
    rcases calls_cases hcalls hd with ⟨-, rfl⟩ | hd
    · exact hstage (queued_stage hqueued).1
    · have := queued_of_comes hkept hcalls harrives hd hqueued
      rw [hnobody hd hkey] at this
      cases this
  · rw [hcalls.others hk'] at hk
    rcases calls_cases hcalls hd with ⟨-, rfl⟩ | hd
    · exact hk' hkey.symm
    · have := queued_of_comes hkept hcalls harrives hd hqueued
      rw [(hcalls.apart hk' hk).2] at hsl
      rw [h.locked hk hsl hlocked hd hkey] at this
      cases this

theorem one_comes (hkept : KeyedLocks.Kept s) (h : Turns s)
    (hcalls : Kept.Calls claim s s' task k slot slot' o stage)
    (harrives : Arrives task s.calls.length slot slot' stage)
    (hguard : guarded s (.call task k) = true) {m n : Nat} {c d : Call}
    (hc : s'.calls[m]? = some c) (hd : s'.calls[n]? = some d) (hkey : c.key = d.key)
    (hcq : s'.queued m c = true) (hdq : s'.queued n d = true) : m = n := by
  -- a call that comes to be queued finds nobody in the queue
  have hfirst {m : Nat} {d : Call} (hd : s.calls[m]? = some d) (hkey : d.key = k)
      (hstage : stage = .waiting false) (hqueued : s'.queued m d = true) : False := by
    have hopen : slot.lock.locked = false := by
      cases harrives with
      | queued _ hopen _ _ => exact hopen
      | nested | looks | took => cases hstage
    have := queued_of_comes hkept hcalls harrives hd hqueued
    rw [nobody_queued hcalls hguard hopen hd hkey] at this
    cases this
  rcases calls_cases hcalls hc with ⟨rfl, rfl⟩ | hc
  · rcases calls_cases hcalls hd with ⟨rfl, rfl⟩ | hd
    · rfl
    · exact (hfirst hd hkey.symm (queued_stage hcq).1 hdq).elim
  · rcases calls_cases hcalls hd with ⟨rfl, rfl⟩ | hd
    · exact (hfirst hc hkey (queued_stage hdq).1 hcq).elim
    · exact h.one hc hd hkey (queued_of_comes hkept hcalls harrives hc hcq)
        (queued_of_comes hkept hcalls harrives hd hdq)

/-- Who is in front of a call that comes is inside, or queued to enter. -/
theorem ahead_comes (hcalls : Kept.Calls claim s s' task k slot slot' o stage) {b : Nat}
    (hb : b ∈ s.ahead task k) :
    b < s.calls.length ∧ ∃ d, s'.calls[b]? = some d ∧ d.key = k ∧ d.stage ≠ .waiting true ∧
      d.stage ≠ .inside .looked := by
  obtain ⟨e, he, htest⟩ := mem_those.mp hb
  simp only [Bool.and_eq_true, decide_eq_true_eq, Bool.or_eq_true, ne_eq] at htest
  obtain ⟨⟨-, hkey⟩, hin⟩ := htest
  have hnot : e.stage ≠ .waiting true ∧ e.stage ≠ .inside .looked := by
    rcases hin with hworks | hqueued
    · constructor <;> intro hestage <;> simp [Call.works, How.works, hestage] at hworks
    · rw [(queued_stage hqueued).1]
      simp
  exact ⟨(List.getElem?_eq_some_iff.mp he).1, e, calls_keep hcalls he, hkey, hnot⟩

/-- Whose task has the lock walks straight in. -/
theorem stage_of_own (hkept : KeyedLocks.Kept s)
    (hcalls : Kept.Calls claim s s' task k slot slot' o stage)
    (harrives : Arrives task s.calls.length slot slot' stage) (hown : s.own task k = true) :
    stage = .inside .nested := by
  rw [KeyedLocks.State.own, List.any_eq_true] at hown
  obtain ⟨e, he, htest⟩ := hown
  simp only [Bool.and_eq_true, decide_eq_true_eq] at htest
  obtain ⟨i, hi⟩ := List.getElem?_of_mem he
  obtain ⟨m, htakes⟩ := hkept.works hi htest.2
  rw [htest.1.2, htest.1.1] at htakes
  have hholder := (hcalls.tally.held.held htakes).2
  cases harrives with
  | nested _ _ => rfl
  | looks hother _ _ => exact absurd hholder hother
  | took hfree _ _ =>
    rw [hfree] at hholder
    cases hholder
  | queued hfree _ _ _ =>
    rw [hfree] at hholder
    cases hholder

theorem comes (hkept : KeyedLocks.Kept s) (h : Turns s)
    (hguard : guarded s (.call task k) = true) (hs' : s.call claim task k = some s') :
    Turns s' := by
  obtain ⟨slot, slot', o, stage, hcalls⟩ := hkept.calls hs'
  have harrives := arrives (fun hopen => hcalls.tally.held.free hopen) hcalls.arrive
  refine ⟨locked_comes hkept h hcalls harrives hguard, one_comes hkept h hcalls harrives hguard,
    fun {m d} hd hahead => ?_, fun {m d} hd b hb => ?_, fun {m d} hd hown => ?_⟩
  · rcases calls_cases hcalls hd with ⟨-, rfl⟩ | hd
    · exact .inl (stage_of_ahead hkept h hcalls harrives hguard hahead)
    · exact h.looks hd hahead
  · rcases calls_cases hcalls hd with ⟨rfl, rfl⟩ | hd
    · obtain ⟨hlt, e, he, hkey, hwaiting, hlooked⟩ := ahead_comes hcalls hb
      have hstage := stage_of_ahead hkept h hcalls harrives hguard (List.ne_nil_of_mem hb)
      exact ⟨hlt, e, he, hkey, hwaiting, hlooked,
        fun hgiven => by simp [given, hstage] at hgiven⟩
    · obtain ⟨hlt, e, he, hrest⟩ := h.ahead hd b hb
      exact ⟨hlt, e, calls_keep hcalls he, hrest⟩
  · rcases calls_cases hcalls hd with ⟨-, rfl⟩ | hd
    · exact .inl (stage_of_own hkept hcalls harrives hown)
    · exact h.own hd hown

end

theorem start : Turns system.start where
  locked hk := by cases hk
  one hc := by cases hc
  looks hc := by cases hc
  ahead hc := by cases hc
  own hc := by cases hc

theorem step {e : Event} (hkept : KeyedLocks.Kept s) (h : Turns s) (hguard : guarded s e = true)
    (hs' : s.step claim e = some s') : Turns s' := by
  rcases step_cases hs' with ⟨task, k, rfl, hs'⟩ | ⟨n, c, slot, slot', stage, hgoes⟩
  · exact h.comes hkept hguard hs'
  · exact h.goes hkept hgoes

end Turns

/-! ## a whole run -/

theorem kept_of_reaches {ok : State → Event → Prop} {s : State}
    (h : Run.Reaches system ok s) : KeyedLocks.Kept s := by
  refine h.invariant KeyedLocks.Kept.start fun _ _ _ hs _ hst => hs.step (fun {holder locked task} h => ?_) rfl hst
  simp only [claim] at h
  split at h
  · assumption
  · split at h <;> cases h

/-- One walk per contact, where no claim comes while the lock is free and another task is
queued to enter; and one holder per key, whatever comes. -/
theorem one_walk {κ : Type} [DecidableEq κ] (s : State) (held : KeyedLocks.State κ) :
    (Run.Reaches system (fun s e => guarded s e = true) s → OneWalk s) ∧
      (Run.Reaches (KeyedLocks.system Routing.KeyedLock.hold) Run.anyStep held →
        Routing.KeyedLock.OneHolder held) := by
  refine ⟨fun h => ?_, Routing.KeyedLock.oneHolder_of_reaches⟩
  refine oneWalk (kept_of_reaches h) ?_
  exact h.invariant_of (fun s hs => kept_of_reaches hs) Turns.start
    fun _ _ _ hkept hs hguard hst => hs.step hkept hguard hst

def contact : ContactKey := .user 7

/-- A walk with a nested claim, and a second tap that waits for its end; and a lock whose
waiter is cancelled. -/
theorem one_walk_twice :
    (∃ s, OneWalk s ∧ s.calls.map given = [some true, some false, some true]) ∧
      ∃ s : KeyedLocks.State Nat, Routing.KeyedLock.OneHolder s ∧ s.slots 3 = none := by
  constructor
  · obtain ⟨s, hs, hfinal⟩ := Run.Reaches.exists_of_play system guarded
      [.call 0 contact, .call 1 contact, .call 0 contact, .leave 2, .leave 0, .turn 1]
      (fun s => s.calls.map given = [some true, some false, some true]) (by decide +kernel)
    exact ⟨s, (one_walk s system.start).1 hs, of_decide_eq_true hfinal⟩
  · obtain ⟨s, hs, hfinal⟩ := Run.Reaches.exists_of_play
      (KeyedLocks.system (κ := Nat) Routing.KeyedLock.hold) (fun _ _ => true)
      [.call 0 3, .call 1 3, .cancel 1, .turn 1, .leave 0] (fun s => s.slots 3 = none)
      (by decide +kernel)
    exact ⟨s, (one_walk system.start s).2 (hs.mono fun _ _ _ => trivial), of_decide_eq_true hfinal⟩

/-- Two claims come between a release and the turn of who waits: the second is queued
behind the first, and walks as well. -/
theorem not_one_walk : ∃ s, Run.Reaches system Run.anyStep s ∧ ¬ OneWalk s := by
  obtain ⟨s, hs, hfinal⟩ := Run.Reaches.exists_of_play system (fun _ _ => true)
    [.call 0 contact, .call 1 contact, .leave 0, .call 2 contact, .call 3 contact, .turn 1, .turn 2,
      .leave 2, .turn 3]
    (fun s => (s.calls[3]?).any fun c => c.ahead ≠ [] && given c = some true) (by decide +kernel)
  refine ⟨s, hs.mono fun _ _ _ => trivial, fun h => ?_⟩
  obtain ⟨c, hc, htest⟩ := (Option.any_eq_true ..).mp hfinal
  simp only [Bool.and_eq_true, decide_eq_true_eq, ne_eq] at htest
  exact h.refused hc htest.1 htest.2

end Telemax.Provisioning.Claims
