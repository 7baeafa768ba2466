import Telemax.OwnerUpdates.Accounted

/-!
# Telemax.OwnerUpdates.Once

Runs in which no call is cut short between an effect and the commit behind it: MAX is asked
for each change once, in the order of the versions, and the edit before the reaction.
-/

namespace Telemax.OwnerUpdates

variable {updates : Updates}

/-! ## what the log is made of -/

/-- Whole changes, newest first: a first sight of the message, from which nothing is derived, or
a commit behind all that its change asks for, and nothing else. -/
inductive Blocks : List Entry → Prop
  | nil : Blocks []
  | first {c : Commit} {l : List Entry} (hnone : c.previous = none) (hl : Blocks l) :
      Blocks (.commit c :: l)
  | change {c : Commit} {previous : Stored} {effects : List Effect} {l : List Entry}
      (hsome : c.previous = some previous) (hasks : previous.Asks c.pts c.snapshot effects)
      (hl : Blocks l) : Blocks (.commit c :: (effects.map .effect ++ l))

def Effect.isEdit : Effect → Bool
  | .edit _ _ => true
  | .reaction _ _ | .unnamed _ => false

/-- A reaction is not what the edit's half asks for. -/
theorem not_mem_editing {previous : Stored} {pts : Nat} {snapshot : Snapshot}
    {effect : Effect} (h : effect.isEdit = false) : effect ∉ previous.editing pts snapshot := by
  intro hmem
  obtain ⟨text, -, rfl⟩ := List.mem_map.mp hmem
  cases h

/-- A change asks for effects of its own version. -/
theorem carried_pts {previous : Option Stored} {pts : Nat} {snapshot : Snapshot}
    {carried : List Effect} (h : (Stage.advancing previous).Carries pts snapshot carried) :
    ∀ e ∈ carried, e.pts = pts := by
  cases previous with
  | none =>
    rw [show carried = [] from h]
    exact nofun
  | some previous =>
    have hediting : ∀ e ∈ previous.editing pts snapshot, e.pts = pts := by
      intro e he
      obtain ⟨text, -, rfl⟩ := List.mem_map.mp he
      rfl
    change previous.Asks pts snapshot carried at h
    unfold Stored.Asks at h
    split at h
    · rcases h with rfl | rfl <;> exact List.forall_mem_cons.mpr ⟨rfl, hediting⟩
    · exact h ▸ hediting

namespace State

/-- What the call that has the lock has called for and not committed. -/
def pending (s : State) : List Effect :=
  (s.holder.bind fun n => s.calls[n]?).elim [] Call.carried

/-- No call fails, is cancelled or dies with an effect it has not committed. -/
def undisturbed (s : State) : Event → Prop
  | .fault n _ => ∀ c, s.calls[n]? = some c → c.carried = []
  | .crash => ∀ c ∈ s.calls, c.carried = []
  | _ => True

variable {s t : State} {n : Nat} {c d : Call}

theorem pending_of_holder (hholder : s.holder = some n) (hn : s.calls[n]? = some c) :
    s.pending = c.carried := by
  rw [pending, hholder, Option.bind_some, hn, Option.elim_some]

theorem pending_of_free (hholder : s.holder = none) : s.pending = [] := by
  rw [pending, hholder, Option.bind_none, Option.elim_none]

/-- The call that has the lock goes on. -/
theorem pending_holder_set (hn : s.calls[n]? = some c) (hcalls : t.calls = s.calls.set n d)
    (hholder : t.holder = some n) : t.pending = d.carried := by
  refine pending_of_holder hholder ?_
  rw [hcalls, List.getElem?_set_self (List.getElem?_eq_some_iff.mp hn).1]

/-- One call goes on, and has called for nothing since. -/
theorem pending_set (hn : s.calls[n]? = some c) (hcalls : t.calls = s.calls.set n d)
    (hholder : t.holder = s.holder) (hcarried : d.carried = c.carried) :
    t.pending = s.pending := by
  unfold pending
  rw [hholder, hcalls]
  cases hheld : s.holder with
  | none => rfl
  | some m =>
    rw [Option.bind_some, Option.bind_some]
    by_cases hm : m = n
    · subst hm
      rw [List.getElem?_set_self (List.getElem?_eq_some_iff.mp hn).1, hn, Option.elim_some,
        Option.elim_some, hcarried]
    · rw [List.getElem?_set_ne (Ne.symm hm)]

theorem pending_append (h : s.Tended updates) (hcalls : t.calls = s.calls ++ [c])
    (hholder : t.holder = s.holder) : t.pending = s.pending := by
  unfold pending
  rw [hholder, hcalls]
  cases hheld : s.holder with
  | none => rfl
  | some m =>
    obtain ⟨u, hu⟩ := h.held m hheld
    rw [Option.bind_some, Option.bind_some,
      List.getElem?_append_left (List.getElem?_eq_some_iff.mp hu).1]

/-- Outside the section nothing is pending. -/
theorem Kept.carried_outside (h : s.Kept updates) (hn : s.calls[n]? = some c)
    (hout : c.point.inside = false) : c.carried = [] := by
  have hcarries := (h.fits hn).carries
  cases hpoint : c.point <;> rw [hpoint] at hout hcarries <;>
    first | exact hcarries | cases hout

/-! ## what an await does to the log -/

/-- An await says nothing, calls for one effect that the call has not called for yet, or
commits. -/
theorem Kept.perform_cases (h : s.Kept updates) (hn : s.calls[n]? = some c)
    (hready : c.ready = none) {now : Int} {claimed : List Nat} {named : Bool}
    (hperform : s.perform n c now claimed named = some t) :
    (t.log = s.log ∧ (∀ st, s.stored = some st → t.stored = some st) ∧
      t.pending = s.pending) ∨
    (∃ effect stage, t = s.call n c effect stage ∧ c.stage.inside = true ∧
      effect.pts = c.pts ∧ effect ∉ c.carried ∧ ∀ st, s.stored = some st → st.pts < c.pts) ∨
    (∃ previous, c.stage = .advancing previous ∧
      t = { s.setCall n { c with ready := some .accounting, carried := [] } with
        stored := advance s.stored c.pts c.snapshot
        log := .commit ⟨previous, c.pts, c.snapshot⟩ :: s.log }) := by
  have hreads := (h.fits hn).reads
  have hcarries := (h.fits hn).carries
  rw [Call.point_of_ready hready] at hreads hcarries
  obtain ⟨stage, pts, snapshot, rest, ready, carried⟩ := c
  cases stage <;> simp only [State.perform] at hperform
  case editing previous text =>
    obtain rfl := Option.some.inj hperform
    obtain ⟨hread, hlt⟩ := hreads
    obtain ⟨-, rfl⟩ : previous.edit snapshot = some text ∧ carried = [] := hcarries
    exact .inr (.inl ⟨_, _, rfl, rfl, rfl, List.not_mem_nil,
      fun st hst => Option.some.inj (hread.symm.trans hst) ▸ hlt⟩)
  case mapping previous =>
    obtain ⟨hread, hlt⟩ := hreads
    obtain ⟨-, rfl⟩ :
      previous.moved snapshot = true ∧ carried = previous.editing pts snapshot := hcarries
    split at hperform
    · obtain rfl := Option.some.inj hperform
      exact .inl ⟨rfl, fun _ hst => hst, pending_set hn rfl rfl rfl⟩
    · obtain rfl := Option.some.inj hperform
      exact .inr (.inl ⟨_, _, rfl, rfl, rfl, not_mem_editing rfl,
        fun st hst => Option.some.inj (hread.symm.trans hst) ▸ hlt⟩)
  case reacting previous =>
    obtain ⟨hread, hlt⟩ := hreads
    obtain ⟨-, rfl⟩ :
      previous.moved snapshot = true ∧ carried = previous.editing pts snapshot := hcarries
    obtain rfl := Option.some.inj hperform
    exact .inr (.inl ⟨_, _, rfl, rfl, rfl, not_mem_editing rfl,
      fun st hst => Option.some.inj (hread.symm.trans hst) ▸ hlt⟩)
  case advancing previous =>
    obtain ⟨hread, hlt⟩ := hreads
    split at hperform
    · obtain rfl := Option.some.inj hperform
      exact .inr (.inr ⟨_, rfl, rfl⟩)
    · next hold =>
      refine absurd ?_ hold
      rw [hread, Option.all_eq_true]
      exact fun st hst => decide_eq_true (hlt st hst)
  case claiming =>
    split at hperform
    · obtain rfl := Option.some.inj hperform
      exact .inl ⟨rfl, fun _ hst => hst, pending_set hn rfl rfl rfl⟩
    · cases hperform
  case seeding =>
    obtain rfl := Option.some.inj hperform
    refine .inl ⟨rfl, fun st hst => ?_, pending_set hn rfl rfl rfl⟩
    show seed s.stored _ _ = some st
    rw [hst]
    rfl
  case acquiring | baseline | ended => cases hperform
  all_goals
    obtain rfl := Option.some.inj hperform
    exact .inl ⟨rfl, fun _ hst => hst, pending_set hn rfl rfl rfl⟩

/-! ## one step -/

/-- Whole changes behind what is pending, all of versions that are settled. -/
structure Once (s : State) : Prop where
  blocks : ∃ l, s.log = s.pending.map .effect ++ l ∧ Blocks l ∧
    ∀ entry ∈ l, ∃ st, s.stored = some st ∧ entry.pts ≤ st.pts
  nodup : s.log.Nodup

namespace Once

/-- Nothing is said. -/
theorem quiet (h : s.Once) (hlog : t.log = s.log)
    (hstored : ∀ st, s.stored = some st → t.stored = some st) (hpending : t.pending = s.pending) :
    t.Once := by
  obtain ⟨l, hl, hblocks, hold⟩ := h.blocks
  refine ⟨⟨l, by rw [hlog, hpending, hl], hblocks, fun entry hentry => ?_⟩, hlog ▸ h.nodup⟩
  obtain ⟨st, hst, hle⟩ := hold entry hentry
  exact ⟨st, hstored st hst, hle⟩

/-- What is not settled yet is nowhere in the log but under way. -/
theorem not_mem (h : s.Once) {entry : Entry} (hpending : ∀ e ∈ s.pending, .effect e ≠ entry)
    (hlt : ∀ st, s.stored = some st → st.pts < entry.pts) : entry ∉ s.log := by
  obtain ⟨l, hl, -, hold⟩ := h.blocks
  rw [hl, List.mem_append]
  rintro (hmem | hmem)
  · obtain ⟨e, he, heq⟩ := List.mem_map.mp hmem
    exact hpending e he heq
  · obtain ⟨st, hst, hle⟩ := hold entry hmem
    exact absurd (hlt st hst) (Nat.not_lt.mpr hle)

theorem called (h : s.Once) (hkept : s.Kept updates) (hn : s.calls[n]? = some c)
    (hin : c.stage.inside = true) {effect : Effect} {stage : Stage} (hpts : effect.pts = c.pts)
    (hnew : effect ∉ c.carried) (hlt : ∀ st, s.stored = some st → st.pts < c.pts) :
    (s.call n c effect stage).Once := by
  have hheld : s.holder = some n := (hkept.tended.lock n c hn).mp hin
  have hpending := pending_of_holder hheld hn
  have hafter : (s.call n c effect stage).pending = effect :: c.carried :=
    pending_holder_set (d := { c with ready := some stage, carried := effect :: c.carried })
      hn rfl hheld
  obtain ⟨l, hl, hblocks, hold⟩ := h.blocks
  refine ⟨⟨l, ?_, hblocks, hold⟩, List.nodup_cons.mpr ⟨h.not_mem (fun e he => ?_) ?_, h.nodup⟩⟩
  · rw [hafter, List.map_cons, List.cons_append, ← hpending, ← hl]
    rfl
  · rw [hpending] at he
    exact fun heq => hnew (Entry.effect.inj heq ▸ he)
  · exact fun st hst => Nat.lt_of_lt_of_eq (hlt st hst) hpts.symm

theorem committed (h : s.Once) (hkept : s.Kept updates) (hn : s.calls[n]? = some c)
    (hready : c.ready = none) {previous : Option Stored}
    (hstage : c.stage = .advancing previous)
    (ht : t = { s.setCall n { c with ready := some .accounting, carried := [] } with
      stored := advance s.stored c.pts c.snapshot
      log := .commit ⟨previous, c.pts, c.snapshot⟩ :: s.log }) : t.Once := by
  have hpoint : c.point = .advancing previous := (Call.point_of_ready hready).trans hstage
  have hreads := (hkept.fits hn).reads
  have hcarries := (hkept.fits hn).carries
  rw [hpoint] at hreads hcarries
  obtain ⟨rfl, hlt⟩ : s.stored = previous ∧ ∀ st, previous = some st → st.pts < c.pts := hreads
  have hheld : s.holder = some n := (hkept.tended.lock n c hn).mp (by rw [hstage]; rfl)
  have hpending := pending_of_holder hheld hn
  have hstored : t.stored = some ⟨c.snapshot.fingerprint, c.snapshot.chosen, c.pts⟩ := by
    rw [ht]
    exact if_pos (by rw [Option.all_eq_true]; exact fun st hst => decide_eq_true (hlt st hst))
  have hafter : t.pending = [] := by
    rw [ht]
    exact pending_holder_set (d := { c with ready := some .accounting, carried := [] })
      hn rfl hheld
  have hlog : t.log = .commit ⟨s.stored, c.pts, c.snapshot⟩ :: s.log := by rw [ht]
  obtain ⟨l, hl, hblocks, hold⟩ := h.blocks
  rw [hpending] at hl
  refine ⟨⟨t.log, by rw [hafter]; rfl, ?_, ?_⟩, ?_⟩
  · rw [hlog, hl]
    cases hread : s.stored with
    | none =>
      rw [hread] at hcarries
      rw [show c.carried = [] from hcarries]
      exact .first rfl hblocks
    | some st =>
      rw [hread] at hcarries
      exact .change rfl hcarries hblocks
  · rw [hlog]
    refine List.forall_mem_cons.mpr ⟨⟨_, hstored, Nat.le_refl _⟩, fun entry hentry => ?_⟩
    refine ⟨_, hstored, ?_⟩
    rw [hl, List.mem_append] at hentry
    rcases hentry with hmem | hmem
    · obtain ⟨e, he, rfl⟩ := List.mem_map.mp hmem
      exact Nat.le_of_eq (carried_pts hcarries e he)
    · obtain ⟨st, hst, hle⟩ := hold entry hmem
      exact Nat.le_trans hle (Nat.le_of_lt (hlt st hst))
  · rw [hlog]
    exact List.nodup_cons.mpr ⟨h.not_mem (fun e _ => nofun) hlt, h.nodup⟩

theorem perform (h : s.Once) (hkept : s.Kept updates) (hn : s.calls[n]? = some c)
    (hready : c.ready = none) {now : Int} {claimed : List Nat} {named : Bool}
    (hperform : s.perform n c now claimed named = some t) : t.Once := by
  obtain ⟨hlog, hstored, hpending⟩ | ⟨effect, stage, rfl, hin, hpts, hnew, hlt⟩ |
    ⟨previous, hstage, ht⟩ := hkept.perform_cases hn hready hperform
  · exact h.quiet hlog hstored hpending
  · exact h.called hkept hn hin hpts hnew hlt
  · exact h.committed hkept hn hready hstage ht

/-- A call outside the section is given the lock, or goes on to where it stands outside. -/
theorem enter (h : s.Once) (hkept : s.Kept updates)
    (ht : (sys updates).step s (.enter n) = some t) : t.Once := by
  simp only [sys, State.step] at ht
  split at ht
  · next c hn =>
    split at ht
    · next hfree =>
      rw [Bool.and_eq_true, Option.isNone_iff_eq_none, Option.isNone_iff_eq_none] at hfree
      obtain ⟨hholder, hready⟩ := hfree
      have hcarried (hout : c.stage.inside = false) : c.carried = [] :=
        hkept.carried_outside hn (by rw [Call.point_of_ready hready, hout])
      have hpending := pending_of_free hholder
      split at ht
      · next hstage =>
        obtain rfl := Option.some.inj ht
        refine h.quiet rfl (fun _ h => h) ?_
        exact Eq.trans (pending_holder_set hn rfl rfl)
          ((hcarried (by rw [hstage]; rfl)).trans hpending.symm)
      · next hstage =>
        obtain rfl := Option.some.inj ht
        refine h.quiet rfl (fun _ h => h) ?_
        exact Eq.trans (pending_holder_set hn rfl rfl)
          ((hcarried (by rw [hstage]; rfl)).trans hpending.symm)
      · cases ht
    · cases ht
  · cases ht

/-- A call that goes on has still called for what it had, and for nothing where it leaves. -/
theorem go (h : s.Once) (hn : s.calls[n]? = some c)
    (hcarried : d.carried = c.carried) (hleaves : d.stage.inside = false → c.carried = []) :
    (s.go n d).Once := by
  refine h.quiet rfl (fun _ h => h) ?_
  by_cases hout : s.holder = some n ∧ d.stage.inside = false
  · have hfree : (s.go n d).holder = none := if_pos hout
    rw [pending_of_free hfree, pending_of_holder hout.1 hn, hleaves hout.2]
  · exact pending_set hn rfl (if_neg hout) hcarried

theorem resume (h : s.Once) (hkept : s.Kept updates)
    (ht : (sys updates).step s (.resume n) = some t) : t.Once := by
  simp only [sys, State.step] at ht
  split at ht
  · next c hn =>
    obtain ⟨stage, hready, rfl⟩ := Option.map_eq_some_iff.mp ht
    have hpoint : c.point = stage := by rw [Call.point, hready, Option.getD_some]
    have hcarried (hout : stage.inside = false) : c.carried = [] :=
      hkept.carried_outside hn (by rw [hpoint, hout])
    split
    · next hended =>
      have hnone := hcarried (by rw [hended]; rfl)
      refine h.go hn ?_ fun _ => hnone
      rw [hnone]
      unfold Call.goOn
      split
      · exact hnone
      · rfl
    · exact h.go hn rfl hcarried
  · cases ht

theorem step (h : s.Once) (hkept : s.Kept updates) {e : Event} (hok : s.undisturbed e)
    (ht : (sys updates).step s e = some t) : t.Once := by
  cases e with
  | update _ | drain | seed _ _ =>
    obtain rfl := Option.some.inj ht
    exact h.quiet rfl (fun _ h => h) (pending_append hkept.tended rfl rfl)
  | enter n => exact h.enter hkept ht
  | exec n now claimed named =>
    simp only [sys, State.step] at ht
    split at ht
    · next c hn =>
      split at ht
      · next hready => exact h.perform hkept hn (Option.isNone_iff_eq_none.mp hready) ht
      · cases ht
    · cases ht
  | resume n => exact h.resume hkept ht
  | fault n cancelled =>
    simp only [sys, State.step] at ht
    split at ht
    · next c hn =>
      split at ht
      · cases ht
      · obtain rfl := Option.some.inj ht
        exact h.go hn (hok c hn).symm fun _ => hok c hn
    · cases ht
  | crash =>
    obtain rfl := Option.some.inj ht
    refine h.quiet rfl (fun _ h => h) ?_
    rw [pending_of_free rfl]
    cases hheld : s.holder with
    | none => rw [pending_of_free hheld]
    | some n =>
      obtain ⟨c, hn⟩ := hkept.tended.held n hheld
      rw [pending_of_holder hheld hn, hok c (List.mem_of_getElem? hn)]
  | sweep =>
    obtain rfl := Option.some.inj ht
    exact h.quiet rfl (fun _ h => h) rfl

end Once

end State

/-- **Each change is asked for once.**  Where no call is cut short between an effect and its
commit, what MAX is asked for is whole changes, one for each commit, besides what the call that
has the lock has called for so far; and nothing is asked for twice, whatever is replayed or
drained beside it. -/
theorem asked_once {s : State} (h : Run.Reaches (sys updates) State.undisturbed s) :
    (∃ l, s.log = s.pending.map .effect ++ l ∧ Blocks l) ∧ s.log.Nodup := by
  have honce : s.Once := by
    refine h.invariant_of (fun _ => State.kept) ?_ fun _ _ _ hkept hs hok ht => hs.step hkept hok ht
    exact ⟨⟨[], rfl, .nil, nofun⟩, .nil⟩
  obtain ⟨l, hl, hblocks, -⟩ := honce.blocks
  exact ⟨⟨l, hl, hblocks⟩, honce.nodup⟩

/-- An update comes twice, and a third one is under way behind the commit of the second. -/
theorem asked_once_twice : ∃ s : State, s.log.Nodup ∧ s.remembered = [2, 2, 1] ∧
    s.log.filterMap Entry.effect? = [.reaction 2 (some ⟨.emoji, "👍"⟩), .edit 2 "hello"] := by
  obtain ⟨s, hs, hfinal⟩ := Run.Reaches.exists_of_play (sys twoVersions)
    (fun _ e => match e with | .crash | .fault .. => false | _ => true)
    [.update 1, .exec 0 10 [] true, .resume 0, .enter 0, .exec 0 10 [] true, .resume 0,
      .exec 0 10 [] true, .resume 0, .exec 0 10 [] true, .resume 0, .exec 0 10 [] true, .resume 0,
      .update 2, .update 2, .exec 1 20 [] true, .resume 1, .exec 2 20 [] true, .resume 2,
      .enter 1, .exec 1 20 [] true, .resume 1, .exec 1 20 [] true, .resume 1,
      .exec 1 20 [] true, .resume 1, .exec 1 20 [] true, .resume 1, .exec 1 20 [] true, .resume 1,
      .enter 2, .exec 2 20 [] true, .resume 2, .exec 2 20 [] true]
    (fun s => s.remembered = [2, 2, 1] && s.log.filterMap Entry.effect? =
      [.reaction 2 (some ⟨.emoji, "👍"⟩), .edit 2 "hello"]) (by decide +kernel)
  simp only [Bool.and_eq_true, decide_eq_true_eq] at hfinal
  refine ⟨s, (asked_once (hs.mono fun s e he => ?_)).2, hfinal.1, hfinal.2⟩
  cases e <;> trivial

end Telemax.OwnerUpdates
