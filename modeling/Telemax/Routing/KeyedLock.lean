import Telemax.Lib.KeyedLocksKept

/-!
# Telemax.Routing.KeyedLock

`KeyedLock.hold`: whoever asks takes the key's lock, or stands in line for it, and
the last one to leave drops it from the map.
-/

namespace Telemax.Routing.KeyedLock

open AsyncLock KeyedLocks

/-- Nobody walks straight in, and an unused lock is always dropped. -/
def hold : Policy where
  arrive _ _ _ := .acquire
  drops _ := true

variable {κ : Type}

/-- The turn of a call that waits has not come. -/
def waitsFor (s : State κ) (n : Nat) (c : Call κ) : Prop :=
  ∃ slot, s.heap[c.slot]? = some slot ∧ ⟨n, .pending⟩ ∈ slot.lock.waiters

/-- One holder of a key at a time; nobody waits but for another call for the same key;
and a key nobody uses has no entry. -/
structure OneHolder (s : State κ) : Prop where
  exclusive : ∀ {m n : Nat} {c d : Call κ}, s.calls[m]? = some c → s.calls[n]? = some d →
    c.key = d.key → c.works = true → d.works = true → m = n
  apart : ∀ {n : Nat} {c : Call κ}, s.calls[n]? = some c → c.waits = true → waitsFor s n c →
    ∃ m d, m ≠ n ∧ s.calls[m]? = some d ∧ d.key = c.key ∧ d.live = true
  idle : ∀ {k : κ}, (∀ c ∈ s.calls, c.key = k → c.live = false) → s.slots k = none

/-- Every block that works has the lock. -/
def Taken (s : State κ) : Prop := ∀ c ∈ s.calls, c.stage ≠ .inside .nested

theorem works_iff {s : State κ} (h : Taken s) {c : Call κ} (hc : c ∈ s.calls)
    (hworks : c.works = true) : c.stage = .inside .taken := by
  have hnested := h c hc
  cases hstage : c.stage with
  | waiting looks => simp [Call.works, hstage] at hworks
  | ended how => simp [Call.works, hstage] at hworks
  | inside how =>
    cases how with
    | taken => rfl
    | nested => exact absurd hstage hnested
    | looked => simp [Call.works, How.works, hstage] at hworks

variable [DecidableEq κ]

theorem Taken.step {s s' : State κ} {e : Event κ} (hkept : Kept s) (h : Taken s)
    (hs' : s.step hold e = some s') : Taken s' := by
  intro c hc
  rcases step_cases hs' with ⟨task, k, -, hs'⟩ | ⟨n, d, slot, slot', stage, hgoes⟩
  · obtain ⟨slot, slot', o, stage, hcalls⟩ := hkept.calls hs'
    rw [hcalls.calls] at hc
    rcases List.mem_append.mp hc with hc | hc
    · exact h c hc
    · rw [List.mem_singleton.mp hc]
      have harrive := hcalls.arrive
      simp only [State.arrive, hold] at harrive
      split at harrive <;> rw [(Prod.mk.inj harrive).2] <;> simp
  · rw [hgoes.calls] at hc
    obtain ⟨m, hm⟩ := List.getElem?_of_mem hc
    rcases Tasks.set_cases hm with ⟨-, rfl⟩ | ⟨-, hm⟩
    · exact hgoes.change.not_nested
    · exact h c (List.mem_of_getElem? hm)

theorem oneHolder {s : State κ} (hkept : Kept s) (h : Taken s) : OneHolder s where
  exclusive {m n c d} hc hd hkey hcworks hdworks := by
    have hcstage := works_iff h (List.mem_of_getElem? hc) hcworks
    have hdstage := works_iff h (List.mem_of_getElem? hd) hdworks
    obtain ⟨slot, -, -, htally⟩ := hkept.entry (hkept.live hc (by simp [Call.live, hcstage]))
    exact htally.held.one ⟨c, hc, rfl, hcstage, rfl⟩ ⟨d, hd, hkey.symm, hdstage, rfl⟩
  apart {n c} hc hwaits := by
    rintro ⟨slot, hslot, hpending⟩
    have hlive : c.live = true := by
      cases hstage : c.stage <;> simp [Call.waits, hstage] at hwaits
      simp [Call.live, hstage]
    obtain ⟨-, htally⟩ := hkept.tally hc hlive hslot
    rcases htally.sound.pending_behind hpending with hlocked | ⟨m, hm, hlt⟩
    · obtain ⟨m, task, d, hd, hkey, hstage, -⟩ := htally.held.taken hlocked
      refine ⟨m, d, ?_, hd, hkey, by simp [Call.live, hstage]⟩
      rintro rfl
      rw [Option.some.inj (hc.symm.trans hd)] at hwaits
      simp [Call.waits, hstage] at hwaits
    · obtain ⟨d, hd, hkey, hdwaits⟩ := (htally.line m).mp hm
      refine ⟨m, d, Nat.ne_of_lt hlt, hd, hkey, ?_⟩
      cases hstage : d.stage <;> simp [Call.waits, hstage] at hdwaits
      simp [Call.live, hstage]
  idle hnone := hkept.idle hnone

/-- Whatever the tasks do, and wherever they are cancelled. -/
theorem oneHolder_of_reaches {s : State κ}
    (h : Run.Reaches (KeyedLocks.system (κ := κ) hold) Run.anyStep s) : OneHolder s := by
  have hkept (s : State κ) (h : Run.Reaches (KeyedLocks.system (κ := κ) hold) Run.anyStep s) :
      Kept s :=
    h.invariant Kept.start fun _ _ _ hs _ hst => hs.step (fun h => by cases h) rfl hst
  have htaken : Taken s :=
    h.invariant_of hkept (fun c hc => by cases hc) fun _ _ _ hk hs _ hst => hs.step hk hst
  exact oneHolder (hkept s h) htaken

end Telemax.Routing.KeyedLock
