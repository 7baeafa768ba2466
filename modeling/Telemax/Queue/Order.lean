import Telemax.Queue.Holding

/-!
# Telemax.Queue.Order

One order per bridge for what goes from MAX to Telegram.  Two senders look for
older jobs at different moments: an inline submission before it claims its own
job, the worker after.  Both looks establish the same fact — every older job of
the bridge in this direction is terminal (`Clear`) — and that fact lasts, because
terminal jobs stay terminal and new jobs get larger ids.

It lasts only as long as no sweep writes a row it selected earlier: `expire_overdue`
may retire a job that a worker has claimed since, and the claim's attempt then puts
the job back on the queue behind a younger one (`not_in_order`).
-/

namespace Telemax.Queue

open Outbox

/-! ## the assumptions -/

/-- What goes from MAX to Telegram is submitted in order. -/
def submitsInOrder (_ : State) : Event → Bool
  | .submit spec barrier => spec.direction != .maxToTg || barrier == .direction
  | _ => true

/-- No lease has run out under a running attempt. -/
def leasesRun (s : State) : Bool :=
  !s.outbox.holdsOf fun i r => r.state == .inflight && s.holderLive i && !held r s.now

/-- No owner's retry, no lease that runs out under a running attempt, submissions
in order: what the statement about order takes for granted. -/
def assumed (s : State) (e : Event) : Bool :=
  noRetryNow s e && leasesRun s && submitsInOrder s e

/-- A run under the assumptions in which every write of a sweep still finds the row
as its select found it. -/
def OrderKept (s : State) (e : Event) : Prop := assumed s e = true ∧ sweepFresh s e = true

theorem OrderKept.noRetryNow {s : State} {e : Event} (h : OrderKept s e) :
    noRetryNow s e = true := by
  have := h.1
  simp only [assumed, Bool.and_eq_true] at this
  exact this.1.1

theorem OrderKept.submitsInOrder {s : State} {e : Event} (h : OrderKept s e) :
    submitsInOrder s e = true := by
  have := h.1
  simp only [assumed, Bool.and_eq_true] at this
  exact this.2

/-- While leases run, `claim_for_attempt` takes a row in flight from nobody. -/
theorem OrderKept.leaseKept {s : State} {e : Event} (h : OrderKept s e) :
    leaseKept s e = true := by
  have hrun := h.1
  simp only [assumed, leasesRun, Bool.and_eq_true, Bool.not_eq_true', ← Bool.not_eq_true,
    Table.holdsOf_iff] at hrun
  cases e with
  | claim a =>
      simp only [Queue.leaseKept, Option.all_eq_true]
      intro x hx row hkey
      by_contra hnot
      simp only [Bool.or_eq_true, bne_iff_ne, Bool.not_eq_true', not_or, not_not,
        Bool.not_eq_true, Bool.not_eq_false] at hnot
      obtain ⟨⟨hst, hheld⟩, hlive⟩ := hnot
      exact hrun.1.2 ⟨row.1, row.2, (bySourceKey_some hkey).1, by simp [hst, hheld, hlive]⟩
  | _ => rfl

/-! ## what the order means -/

/-- Every job of the bridge from MAX to Telegram with a smaller id is terminal. -/
def Clear (o : Outbox) (bridge : String) (j : Nat) : Prop :=
  ∀ i r, i < j → o.get? i = some r → r.bridgeName = bridge → r.direction = .maxToTg →
    r.state.terminal = true

/-- While an attempt is in the sender, nothing older is undelivered. -/
def NothingOlder (s : State) : Prop :=
  ∀ a x, s.attempts.get? a = some x → x.phase = .inSender → x.spec.direction = .maxToTg →
    Clear s.outbox x.spec.bridgeName x.job

/-- The jobs of a bridge from MAX to Telegram that entered the sender or fired, the
newest first. -/
def effects (bridge : String) (log : List Mark) : List Nat :=
  log.filterMap fun
    | .entered j _ b d | .fired j _ b d =>
        if b = bridge ∧ d = .maxToTg then some j else none
    | .retried _ _ => none

/-- Job ids never go back: what is newer in the log is at least as large. -/
def EffectsInOrder (log : List Mark) : Prop :=
  ∀ bridge, (effects bridge log).Pairwise fun newer older => older ≤ newer

/-- The order of one direction of a bridge. -/
def InOrder (s : State) : Prop := NothingOlder s ∧ EffectsInOrder s.log

/-! ## what the looks establish -/

theorem clear_of_not_blocked {s : State} {x : Attempt} (hd : x.spec.direction = .maxToTg)
    (h : s.blocked x .direction = false) : Clear s.outbox x.spec.bridgeName x.job := by
  intro i r hi hr hb hdir
  have hnone : ¬ ∃ i r, s.outbox.get? i = some r ∧
      (r.bridgeName == x.spec.bridgeName && r.direction == x.spec.direction &&
        decide (i < x.job) && r.state.undelivered) = true := by
    rw [← Table.holdsOf_iff]
    simpa [State.blocked, olderUndelivered] using h
  cases hst : r.state.undelivered with
  | false => simpa using hst
  | true => exact absurd ⟨i, r, hr, by simp [hb, hd, hdir, hi, hst]⟩ hnone

/-- A decision that was read is about a job that is terminal. -/
def DecisionsTerminal (s : State) : Prop :=
  ∀ i decision read, (i, decision, read) ∈ s.decisions →
    ∃ r, s.outbox.get? i = some r ∧ r.state.terminal = true

/-- A submission that has written its job down: the row is there under its key, and
once its look is done nothing older is undelivered. -/
def Written (s : State) : Prop :=
  ∀ a x, s.attempts.get? a = some x → x.spec.direction = .maxToTg →
    (x.phase = .unblocked ∨ ∃ barrier, x.phase = .enqueued barrier) →
      ∃ r, s.outbox.get? x.job = some r ∧ r.sourceKey = some x.spec.sourceKey

/-- A submission from MAX to Telegram looks at the whole direction. -/
def LooksAtDirection (s : State) : Prop :=
  ∀ a x barrier, s.attempts.get? a = some x → x.spec.direction = .maxToTg →
    x.phase = .enqueued barrier → barrier = .direction

/-- Every attempt past its look is clear, and so is every job of the log. -/
structure Ordered (s : State) : Prop where
  turn : ∀ a x, s.attempts.get? a = some x → x.phase.inTurn = true →
    x.spec.direction = .maxToTg → Clear s.outbox x.spec.bridgeName x.job
  log : ∀ bridge, ∀ j ∈ effects bridge s.log, Clear s.outbox bridge j
  effects : EffectsInOrder s.log

/-- What holds in every state of a run that keeps the order. -/
structure OrderInv (s : State) : Prop where
  held : Held s
  decisions : DecisionsTerminal s
  written : Written s
  looks : LooksAtDirection s
  ordered : Ordered s

/-! ## the order lasts -/

theorem RowBorn.next_le {s : State} {i : Nat} {e : Event} {r : OutboxItem} {l : Option Nat}
    (h : RowBorn s i e r l) : s.outbox.next ≤ i := by
  cases h with
  | submitted hi => exact hi
  | batched _ hi => exact hi
  | leased _ _ _ hi => exact hi.ge

/-- A terminal job stays terminal, whatever the owner decides short of a retry. -/
theorem Held.stays_terminal {s t : State} {e : Event} (hs : Held s) (hsound : Sound s)
    (h : After s t e) (hok : OrderKept s e) {i : Nat} {r : OutboxItem}
    (hr : s.outbox.get? i = some r) (hterm : r.state.terminal = true) :
    ∃ r', t.outbox.get? i = some r' ∧ r'.state.terminal = true := by
  cases howner : ownerDecides i s e with
  | false =>
      obtain ⟨r', hr', hst⟩ := hs.terminal_step hsound h hok.2 howner hr hterm
      exact ⟨r', hr', hst ▸ hterm⟩
  | true =>
      obtain ⟨r', hr', hc⟩ := h.row_kept hr
      refine ⟨r', hr', ?_⟩
      cases e with
      | decideWrite index =>
          generalize t.latest i = l at hc
          cases hc with
          | same | rewritten => exact hterm
          | @decided _ decision read hd =>
              cases decision with
              | retryNow => simpa [Queue.noRetryNow, hd] using hok.noRetryNow
              | resolve | archive => rfl
      | _ => cases howner

theorem Clear.step {s t : State} {e : Event} {bridge : String} {j : Nat}
    (hc : Clear s.outbox bridge j) (hs : Held s) (hsound : Sound s) (h : After s t e)
    (hok : OrderKept s e) (hj : ∃ r, s.outbox.get? j = some r) : Clear t.outbox bridge j := by
  obtain ⟨rj, hj⟩ := hj
  intro i r' hi hr' hb hd
  rcases h.row_from hr' with ⟨r, hr, hchange⟩ | ⟨-, hborn⟩
  · obtain ⟨hbridge, hdirection, -, -⟩ := hchange.sameJob
    have hterm := hc i r hi hr (hbridge ▸ hb) (hdirection ▸ hd)
    obtain ⟨r'', hr'', hterm'⟩ := hs.stays_terminal hsound h hok hr hterm
    rw [hr', Option.some.injEq] at hr''
    exact hr'' ▸ hterm'
  · have := hborn.next_le
    have := Table.lt_next hj
    omega

theorem DecisionsTerminal.step {s t : State} {e : Event} (hs : DecisionsTerminal s)
    (hheld : Held s) (hsound : Sound s) (hok : OrderKept s e) (hstep : step s e = some t) :
    DecisionsTerminal t := by
  intro i decision read hd
  have hterm : ∃ r, s.outbox.get? i = some r ∧ r.state.terminal = true := by
    rcases step_decisions hstep _ hd with hold | ⟨hr, hallows⟩
    · exact hs i decision read hold
    · exact ⟨read, hr, terminal_of_allows hallows⟩
  obtain ⟨r, hr, hterm⟩ := hterm
  exact hheld.stays_terminal hsound (step_after hstep) hok hr hterm

theorem DecisionsTerminal.decides {s : State} (hs : DecisionsTerminal s) (e : Event) :
    DecidesTerminal s e := by
  rintro index i decision read r rfl hd hr
  obtain ⟨r', hr', hterm⟩ := hs i decision read (List.mem_of_getElem? hd)
  rw [hr, Option.some.injEq] at hr'
  exact hr' ▸ hterm

theorem Written.step {s t : State} {e : Event} (hs : Written s) (h : After s t e)
    (hok : OrderKept s e) : Written t := by
  have hkept : ∀ a x, s.attempts.get? a = some x → x.spec.direction = .maxToTg →
      (x.phase = .unblocked ∨ ∃ barrier, x.phase = .enqueued barrier) →
      ∃ r, t.outbox.get? x.job = some r ∧ r.sourceKey = some x.spec.sourceKey := by
    intro a x hx hd hp
    obtain ⟨r, hr, hkey⟩ := hs a x hx hd hp
    obtain ⟨r', hr', hc⟩ := h.row_kept hr
    exact ⟨r', hr', hc.sameJob.2.2.2.trans hkey⟩
  intro a y hy hd hp
  rcases h.attempt_from hy with ⟨x, hx, hc⟩ | ⟨-, hborn⟩
  · cases hc with
    | same => exact hkept a y hx hd hp
    | unblocked hph => exact hkept a x hx hd (.inr ⟨_, hph⟩)
    | marked hph => simp [hph] at hp
    | ended hend => rcases hend with rfl | rfl <;> simp at hp
    | cleared | mustWait | claimed | entered | settled => simp at hp
  · cases hborn with
    | submitted =>
        have hsubmit := hok.submitsInOrder
        simp only [Queue.submitsInOrder, Bool.or_eq_true, bne_iff_ne, reduceCtorEq, beq_iff_eq,
          or_false] at hsubmit
        exact absurd hd hsubmit
    | enqueued hb hfit ht =>
        obtain ⟨r, hr, hkey, -⟩ := enqueue_row s.outbox _ s.now
        exact ⟨r, ht ▸ hr, hkey⟩
    | tookUp => simp [Attempt.ofRow] at hp

theorem LooksAtDirection.step {s t : State} {e : Event} (hs : LooksAtDirection s)
    (h : After s t e) (hok : OrderKept s e) : LooksAtDirection t := by
  intro a y barrier hy hd hp
  rcases h.attempt_from hy with ⟨x, hx, hc⟩ | ⟨-, hborn⟩
  · cases hc with
    | same => exact hs a y barrier hx hd hp
    | marked hph => rw [hph] at hp; cases hp
    | ended hend => rcases hend with rfl | rfl <;> cases hp
    | unblocked | cleared | mustWait | claimed | entered | settled => cases hp
  · cases hborn with
    | submitted => cases hp
    | enqueued hb hfit ht =>
        cases hp
        have hsubmit := hok.submitsInOrder
        simp only [Queue.submitsInOrder, Bool.or_eq_true, bne_iff_ne, beq_iff_eq] at hsubmit
        exact hsubmit.resolve_left (not_not_intro hd)
    | tookUp => cases hp

/-- A job an attempt has claimed or written down has a row. -/
theorem OrderInv.has_row {s : State} (hs : OrderInv s) {a : Nat} {x : Attempt}
    (hx : s.attempts.get? a = some x) (hd : x.spec.direction = .maxToTg)
    (hp : x.phase.claiming = true ∨ x.phase = .unblocked ∨ ∃ b, x.phase = .enqueued b) :
    ∃ r, s.outbox.get? x.job = some r := by
  rcases hp with hp | hp
  · obtain ⟨r, hr, -⟩ := hs.held a x hx hp
    exact ⟨r, hr⟩
  · obtain ⟨r, hr, -⟩ := hs.written a x hx hd hp
    exact ⟨r, hr⟩

/-- An attempt past its look stays clear, and a look that finds nothing makes it so. -/
theorem OrderInv.turn_step {s t : State} {e : Event} (hs : OrderInv s) (hsound : Sound s)
    (h : After s t e) (hok : OrderKept s e) (a : Nat) (y : Attempt)
    (hy : t.attempts.get? a = some y) (hp : y.phase.inTurn = true)
    (hd : y.spec.direction = .maxToTg) : Clear t.outbox y.spec.bridgeName y.job := by
  have hlasts : ∀ x, s.attempts.get? a = some x → x.spec.direction = .maxToTg →
      (x.phase.claiming = true ∨ x.phase = .unblocked ∨ ∃ b, x.phase = .enqueued b) →
      Clear s.outbox x.spec.bridgeName x.job → Clear t.outbox x.spec.bridgeName x.job :=
    fun x hx hd hp hc => hc.step hs.held hsound h hok (hs.has_row hx hd hp)
  have hturn : ∀ x, s.attempts.get? a = some x → x.spec.direction = .maxToTg →
      x.phase.inTurn = true → Clear t.outbox x.spec.bridgeName x.job := by
    intro x hx hd hp
    refine hlasts x hx hd ?_ (hs.ordered.turn a x hx hp hd)
    cases hph : x.phase <;> simp_all [Phase.inTurn, Phase.claiming]
  rcases h.attempt_from hy with ⟨x, hx, hc⟩ | ⟨-, hborn⟩
  · cases hc with
    | same => exact hturn y hx hd hp
    | marked hph _ | entered hph => exact hturn x hx hd (by rw [hph]; rfl)
    | unblocked hph hb =>
        rw [hs.looks a x _ hx hd hph] at hb
        exact hlasts x hx hd (.inr (.inr ⟨_, hph⟩)) (clear_of_not_blocked hd hb)
    | cleared hph hb =>
        exact hlasts x hx hd (.inl (by rw [hph]; rfl)) (clear_of_not_blocked hd hb)
    | claimed hph hfit hclaim ht hl =>
        -- the claim finds the row the submission has written down
        obtain ⟨r, hr, hkey⟩ := hs.written a x hx hd (.inl hph)
        rcases claimForAttempt_ours hclaim with ⟨r', hkey', -, -⟩ | ⟨hnone, -, -⟩
        · rw [hsound.keys.bySourceKey_eq hr hkey, Option.some.injEq, Prod.mk.injEq] at hkey'
          obtain ⟨rfl, -⟩ := hkey'
          exact hturn x hx hd (by rw [hph]; rfl)
        · exact absurd hkey (bySourceKey_none hnone hr)
    | ended hend => rcases hend with rfl | rfl <;> cases hp
    | mustWait | settled => cases hp
  · cases hborn with
    | submitted =>
        have hsubmit := hok.submitsInOrder
        simp only [Queue.submitsInOrder, Bool.or_eq_true, bne_iff_ne, reduceCtorEq, beq_iff_eq,
          or_false] at hsubmit
        exact absurd hd hsubmit
    | enqueued | tookUp => cases hp

/-! ## the log -/

theorem effects_append (bridge : String) (marks log : List Mark) :
    effects bridge (marks ++ log) = effects bridge marks ++ effects bridge log :=
  List.filterMap_append

theorem effects_length_le (bridge : String) (marks : List Mark) :
    (effects bridge marks).length ≤ marks.length :=
  List.length_filterMap_le _ _

/-- An effect in the log is a mark of that job. -/
theorem mark_of_mem_effects {bridge : String} {j : Nat} {log : List Mark}
    (h : j ∈ effects bridge log) :
    ∃ a, .entered j a bridge .maxToTg ∈ log ∨ .fired j a bridge .maxToTg ∈ log := by
  obtain ⟨m, hm, hj⟩ := List.mem_filterMap.mp h
  cases m with
  | entered i a b d =>
      simp only [Option.ite_none_right_eq_some, Option.some.injEq] at hj
      obtain ⟨⟨rfl, rfl⟩, rfl⟩ := hj
      exact ⟨a, .inl hm⟩
  | fired i a b d =>
      simp only [Option.ite_none_right_eq_some, Option.some.injEq] at hj
      obtain ⟨⟨rfl, rfl⟩, rfl⟩ := hj
      exact ⟨a, .inr hm⟩
  | retried => cases hj

/-- The effect of an event is that of an attempt that is cleared or in the sender. -/
theorem After.effect_from {s t : State} {e : Event} (h : After s t e) {bridge : String}
    {j : Nat} (hj : j ∈ effects bridge (marksOf s e)) :
    ∃ a x, s.attempts.get? a = some x ∧ x.job = j ∧ x.spec.bridgeName = bridge ∧
      x.spec.direction = .maxToTg ∧ (x.phase = .cleared ∨ x.phase = .inSender) := by
  obtain ⟨a, hm⟩ := mark_of_mem_effects hj
  cases e with
  | enter b =>
      cases hx : s.attempts.get? b with
      | none => simp [marksOf, hx] at hm
      | some x =>
          simp only [marksOf, hx, Option.elim_some, List.mem_singleton, Mark.entered.injEq,
            reduceCtorEq, or_false] at hm
          obtain ⟨rfl, rfl, rfl, hd⟩ := hm
          obtain ⟨y, -, hc⟩ := h.attempt_kept hx
          refine ⟨a, x, hx, rfl, rfl, hd.symm, ?_⟩
          cases hc with
          | same ha => exact absurd rfl ha
          | entered hp => exact .inl hp
          | marked hp => exact .inr hp
          | ended _ hm => simp [marksOf, hx] at hm
  | sending b =>
      cases hx : s.attempts.get? b with
      | none => simp [marksOf, hx] at hm
      | some x =>
          simp only [marksOf, hx, Option.elim_some, List.mem_singleton, Mark.fired.injEq,
            reduceCtorEq, false_or] at hm
          obtain ⟨rfl, rfl, rfl, hd⟩ := hm
          obtain ⟨y, -, hc⟩ := h.attempt_kept hx
          refine ⟨a, x, hx, rfl, rfl, hd.symm, ?_⟩
          cases hc with
          | same ha => exact absurd rfl ha
          | marked hp => exact .inr hp
          | ended _ hm => simp [marksOf, hx] at hm
  | settle b outcome backoff =>
      cases hx : s.attempts.get? b with
      | none => simp [marksOf, hx] at hm
      | some x =>
          simp only [marksOf, hx, Option.elim_some] at hm
          split at hm <;> simp at hm
  | _ => simp [marksOf] at hm

theorem Ordered.step {s t : State} {e : Event} (hs : OrderInv s) (hsound : Sound s)
    (h : After s t e) (hok : OrderKept s e) : Ordered t := by
  have hrow : ∀ bridge, ∀ j ∈ Queue.effects bridge s.log, ∃ r, s.outbox.get? j = some r := by
    intro bridge j hj
    obtain ⟨a, hm | hm⟩ := mark_of_mem_effects hj
    · exact (hsound.logged _ hm).2
    · exact (hsound.logged _ hm).2
  have hnew : ∀ bridge, ∀ j ∈ Queue.effects bridge (marksOf s e),
      Clear s.outbox bridge j ∧ ∃ r, s.outbox.get? j = some r ∧ r.bridgeName = bridge ∧
        r.direction = .maxToTg ∧ r.state = .inflight := by
    intro bridge j hj
    obtain ⟨a, x, hx, rfl, rfl, hd, hp⟩ := h.effect_from hj
    have hclaiming : x.phase.claiming = true := by rcases hp with hp | hp <;> rw [hp] <;> rfl
    obtain ⟨r, hr, hst, -⟩ := hs.held a x hx hclaiming
    obtain ⟨r', hr', hb, hdir, -⟩ := hsound.claimed a x hx hclaiming
    rw [hr, Option.some.injEq] at hr'
    subst hr'
    refine ⟨hs.ordered.turn a x hx ?_ hd, r, hr, hb, hdir.trans hd, hst⟩
    rcases hp with hp | hp <;> rw [hp] <;> rfl
  refine ⟨hs.turn_step hsound h hok, fun bridge j hj => ?_, fun bridge => ?_⟩
  · rw [h.log, effects_append, List.mem_append] at hj
    rcases hj with hj | hj
    · obtain ⟨hclear, r, hr, -⟩ := hnew bridge j hj
      exact hclear.step hs.held hsound h hok ⟨r, hr⟩
    · exact (hs.ordered.log bridge j hj).step hs.held hsound h hok (hrow bridge j hj)
  · rw [h.log, effects_append, List.pairwise_append]
    refine ⟨?_, hs.ordered.effects bridge, fun j hj k hk => ?_⟩
    · have hlen := (effects_length_le bridge (marksOf s e)).trans (marksOf_length s e)
      match Queue.effects bridge (marksOf s e), hlen with
      | [], _ => exact .nil
      | [_], _ => exact List.pairwise_singleton _ _
    · -- an older job that is in flight now was terminal when the younger one went out
      by_contra hlt
      obtain ⟨-, r, hr, hb, hd, hst⟩ := hnew bridge j hj
      have hterm := hs.ordered.log bridge k hk j r (Nat.lt_of_not_le hlt) hr hb hd
      simp [hst] at hterm

/-! ## every run -/

theorem OrderInv.start : OrderInv system.start where
  held := fun a x hx => by simp [system] at hx
  decisions := fun i d read hd => by simp [system] at hd
  written := fun a x hx => by simp [system] at hx
  looks := fun a x b hx => by simp [system] at hx
  ordered :=
    { turn := fun a x hx => by simp [system] at hx
      log := fun _ _ hj => by simp [system, Queue.effects] at hj
      effects := fun _ => List.Pairwise.nil }

theorem OrderInv.step {s t : State} {e : Event} (hs : OrderInv s) (hsound : Sound s)
    (hok : OrderKept s e) (hstep : step s e = some t) : OrderInv t where
  held := hs.held.step hsound (step_after hstep) hok.leaseKept hok.2 (hs.decisions.decides e)
  decisions := hs.decisions.step hs.held hsound hok hstep
  written := hs.written.step (step_after hstep) hok
  looks := hs.looks.step (step_after hstep) hok
  ordered := Ordered.step hs hsound (step_after hstep) hok

/-- **One order per bridge.**  In a run under the assumptions in which every write
of a sweep still finds the row as its select found it: while an attempt from MAX to
Telegram is in the sender nothing older of its bridge is undelivered, and the jobs
of a bridge take effect in the order of their ids. -/
theorem in_order {s : State} (h : Run.Reaches system OrderKept s) : InOrder s := by
  have hinv : OrderInv s := h.invariant_of (fun _ => sound_of_reaches) .start
    fun _ _ _ hsound hs hok hst => hs.step hsound hok hst
  refine ⟨fun a x hx hp hd => ?_, hinv.ordered.effects⟩
  exact hinv.ordered.turn a x hx (by rw [hp]; rfl) hd

/-! ## runs -/

/-- The next text of the same bridge. -/
def nextText : JobSpec := { someText with sourceKey := "max:1:2" }

/-- The first text is put off by a refused connection; the second waits behind it
until the worker has sent the first. -/
def twoTexts : List Event :=
  [.requeueSelect, .started, .submit someText .direction, .check 1, .claim 1, .enter 1,
   .settle 1 (.raised (.other "TimeoutError" "")) 0, .submit nextText .direction, .check 2,
   .drain "bridge" 1, .check 3, .enter 3, .sending 3, .settle 3 (.delivered (some 7)) 0,
   .drain "bridge" 1, .check 4, .enter 4, .sending 4]

/-- In the run of `twoTexts` the effects come in order, the second text after the
retried first. -/
theorem in_order_twoTexts :
    ∃ s, InOrder s ∧ effects "bridge" s.log = [2, 2, 1, 1, 1] := by
  obtain ⟨s, hs, hlog⟩ := Run.Reaches.exists_of_play system
    (fun s e => assumed s e && sweepFresh s e) twoTexts
    (fun s => effects "bridge" s.log == [2, 2, 1, 1, 1]) rfl
  exact ⟨s, in_order (hs.mono fun _ _ h => Bool.and_eq_true_iff.mp h), by simpa using hlog⟩

/-- The first text has waited out its life.  The sweep selects it as overdue, the
worker claims it and enters the sender, the sweep retires it; so the second text
finds nothing older and goes out, and then the first attempt fails and puts the
first text back on the queue. -/
def overdueAndClaimed : List Event :=
  [.requeueSelect, .started, .submit someText .direction, .check 1, .claim 1, .enter 1,
   .settle 1 (.raised (.other "TimeoutError" "")) 0, .crash, .clock defaultTtlMs,
   .requeueSelect, .started, .reclaimSelect, .expireSelect, .drain "bridge" 1, .check 2,
   .enter 2, .expireWrite, .submit nextText .direction, .check 3, .claim 3, .enter 3,
   .sending 3, .settle 2 (.raised (.other "TimeoutError" "")) 0]

/-- Without the condition on the sweep the order is lost, with every assumption met:
in the run of `overdueAndClaimed` the second text is in the sender while the first
is pending. -/
theorem not_in_order :
    ¬ ∀ s, Run.Reaches system (fun s e => assumed s e = true) s → InOrder s := by
  intro hclaim
  obtain ⟨s, hs, hlast⟩ := Run.Reaches.exists_of_play system assumed overdueAndClaimed
    (fun s => leasesRun s &&
      ((s.attempts.get? 3).any (fun x => x.phase == .inSender && x.spec == nextText &&
        x.job == 2) &&
      (s.outbox.get? 1).any fun r => r.state == .pending && r.bridgeName == "bridge" &&
        r.direction == .maxToTg)) rfl
  simp only [Bool.and_eq_true, Option.any_eq_true, beq_iff_eq] at hlast
  obtain ⟨-, ⟨x, hx, ⟨hp, hspec⟩, hjob⟩, r, hr, ⟨hst, hb⟩, hd⟩ := hlast
  have hterm := (hclaim s hs).1 3 x hx hp (by rw [hspec]; rfl) 1 r (by omega) hr
    (by rw [hspec]; exact hb) hd
  simp [hst] at hterm

end Telemax.Queue
