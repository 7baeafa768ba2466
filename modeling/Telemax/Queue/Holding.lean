import Telemax.Queue.Invariants

/-!
# Telemax.Queue.Holding

An attempt that has claimed a job should hold its row until it settles it: the
row is in flight, and the last claim of it is the attempt's.  Nothing in the
writes of an attempt checks this, so it depends on who else may write the row
meanwhile.  Three writers can take a row away from a running attempt:

* the lease ran out, and the sweep or `claim_for_attempt` took the row;
* a sweep or an owner's decision had read the row before the attempt claimed it
  and writes it after.

In a run where neither happens (`leaseKept`, `selectFresh`) every running attempt
holds its row (`Held`), and therefore a terminal job stays as it is until the
owner decides about it (`terminal_absorbing`).
-/

namespace Telemax.Queue

open Outbox

/-! ## what a run has to meet -/

/-- Is the attempt that made the last claim of this job still at it? -/
def State.holderLive (s : State) (i : Nat) : Bool :=
  (s.latest i).any fun a => (s.attempts.get? a).any fun x => x.phase.claiming

/-- `claim_for_attempt` takes a row whose lease has run out from no attempt that
is still running. -/
def leaseKept (s : State) : Event → Bool
  | .claim a =>
      (s.attempts.get? a).all fun x =>
        (s.outbox.bySourceKey x.spec.sourceKey).all fun row =>
          row.2.state != .inflight || held row.2 s.now || !s.holderLive row.1
  | _ => true

/-- Each write of a sweep still finds the row as its select found it: in flight
with its lease run out and nobody running at it, or pending. -/
def sweepFresh (s : State) : Event → Bool
  | .reclaimWrite =>
      match s.sweeper with
      | .reclaiming stamp ((i, _) :: _) =>
          (s.outbox.get? i).all fun r => leaseExpired stamp r && !s.holderLive i
      | _ => true
  | .expireWrite =>
      match s.sweeper with
      | .expiring (i :: _) => (s.outbox.get? i).all fun r => r.state == .pending
      | _ => true
  | _ => true

/-- Each write of an owner's decision still finds the row in a state that allows it. -/
def decisionFresh (s : State) : Event → Bool
  | .decideWrite index =>
      (s.decisions[index]?).all fun d => (s.outbox.get? d.1).all fun r => d.2.1.allows r
  | _ => true

/-- The write of a decision finds a terminal row. -/
def DecidesTerminal (s : State) (e : Event) : Prop :=
  ∀ index i decision read r, e = .decideWrite index →
    s.decisions[index]? = some (i, decision, read) → s.outbox.get? i = some r →
      r.state.terminal = true

theorem terminal_of_allows {decision : Decision} {r : OutboxItem}
    (h : decision.allows r = true) : r.state.terminal = true := by
  cases decision <;> cases hst : r.state <;> simp [Decision.allows, hst] at h ⊢ <;> rfl

theorem decidesTerminal_of_fresh {s : State} {e : Event} (h : decisionFresh s e = true) :
    DecidesTerminal s e := by
  rintro index i decision read r rfl hd hr
  exact terminal_of_allows (by simpa [decisionFresh, hd, hr] using h)

/-! ## every running attempt holds its row -/

/-- A running attempt that has claimed a job made the last claim of it, and the
job is in flight. -/
def Held (s : State) : Prop :=
  ∀ a x, s.attempts.get? a = some x → x.phase.claiming = true →
    ∃ r, s.outbox.get? x.job = some r ∧ r.state = .inflight ∧ s.latest x.job = some a

theorem Held.holderLive {s : State} (hs : Held s) {a : Nat} {x : Attempt}
    (hx : s.attempts.get? a = some x) (hp : x.phase.claiming = true) :
    s.holderLive x.job = true := by
  obtain ⟨-, -, -, hl⟩ := hs a x hx hp
  simp [State.holderLive, hl, hx, hp]

theorem running_of_claiming {p : Phase} (h : p.claiming = true) : p.running = true := by
  cases p <;> first | rfl | cases h

/-- A row selected by the start-up recovery is in flight. -/
theorem Sound.requeued_inflight {s : State} (hs : Sound s) {i : Nat} {wasStarted : Bool}
    {rest : List (Nat × Bool)} (hm : s.mode = .requeueing ((i, wasStarted) :: rest))
    {r : OutboxItem} (hr : s.outbox.get? i = some r) : r.state = .inflight := by
  obtain ⟨-, hrows⟩ := (hs.booting (by rw [hm]; simp)).2 _ hm
  obtain ⟨r₀, hr₀, hst, -⟩ := hrows i wasStarted List.mem_cons_self
  rw [hr, Option.some.injEq] at hr₀
  exact hr₀ ▸ hst

/-- While somebody is at a job, no event but the settlement of that attempt takes
the row away. -/
theorem Held.keep {s t : State} {e : Event} (hs : Held s) (hsound : Sound s)
    (h : After s t e) (hlease : leaseKept s e = true) (hsweep : sweepFresh s e = true)
    (hdecide : DecidesTerminal s e) (a : Nat) (x : Attempt)
    (hx : s.attempts.get? a = some x) (hp : x.phase.claiming = true)
    (hown : e.writer? = some a → e = .sending a) :
    ∃ r, t.outbox.get? x.job = some r ∧ r.state = .inflight ∧ t.latest x.job = some a := by
  obtain ⟨r, hr, hst, hl⟩ := hs a x hx hp
  obtain ⟨r', hr', hc⟩ := h.row_kept hr
  have hlive : s.holderLive x.job = true := hs.holderLive hx hp
  refine ⟨r', hr', ?_⟩
  generalize t.latest x.job = l at hc
  cases hc with
  | same | rewritten | fired => exact ⟨hst, hl⟩
  | @claimed b y hy hph hkey ht =>
      have hheld : held r s.now = true := by
        simpa [leaseKept, hy, hkey, hst, hlive] using hlease
      simp [takeable, hst, hheld] at ht
  | drained hdue hb =>
      rw [(due_pending hdue).2.2] at hst
      cases hst
  | @waited b y hy hph hj =>
      obtain ⟨-, -, -, hlb⟩ := hs b y hy (by rw [hph]; rfl)
      rw [hj, hl, Option.some.injEq] at hlb
      cases hown (by rw [hlb]; rfl)
  | @settled b backoff y outcome hy hph hj ho =>
      obtain ⟨-, -, -, hlb⟩ := hs b y hy (by rw [hph]; rfl)
      rw [hj, hl, Option.some.injEq] at hlb
      cases hown (by rw [hlb]; rfl)
  | reclaimed hsw =>
      simp [sweepFresh, hsw, hr, hlive] at hsweep
  | expired hsw =>
      simp [sweepFresh, hsw, hr, hst] at hsweep
  | requeued hm =>
      have hidle := (hsound.booting (by rw [hm]; simp)).1 a x hx
      rw [running_of_claiming hp] at hidle
      cases hidle
  | decided hd =>
      have hterm := hdecide _ _ _ _ r rfl hd hr
      simp [hst] at hterm
  | cancelled hu =>
      simp [unsent, hst] at hu

theorem Held.step {s t : State} {e : Event} (hs : Held s) (hsound : Sound s)
    (h : After s t e) (hlease : leaseKept s e = true) (hsweep : sweepFresh s e = true)
    (hdecide : DecidesTerminal s e) : Held t := by
  have hkeep := hs.keep hsound h hlease hsweep hdecide
  intro a y hy hp
  rcases h.attempt_from hy with ⟨x, hx, hc⟩ | ⟨-, hborn⟩
  · cases hc with
    | same ha =>
        refine hkeep a y hx hp fun hw => absurd ?_ ha
        cases e <;> simp_all [Event.writer?, Event.attempt?]
    | unblocked => cases hp
    | cleared hph | mustWait hph | entered hph =>
        exact hkeep a x hx (by rw [hph]; rfl) fun hw => by cases hw
    | marked hph he =>
        refine hkeep a x hx (by rw [hph]; rfl) fun hw => ?_
        rcases he with rfl | rfl
        · rfl
        · cases hw
    | settled => cases hp
    | ended hend => rcases hend with rfl | rfl <;> cases hp
    | claimed hph hfit hclaim ht hl =>
        rcases claimForAttempt_ours hclaim with ⟨r, hkey, -, rfl⟩ | ⟨-, rfl, rfl⟩
        · exact ⟨lease s.now r, by rw [ht, Table.get?_modify_self, (bySourceKey_some hkey).1]; rfl,
            rfl, hl⟩
        · exact ⟨_, by rw [ht, Table.get?_insert, if_pos rfl], rfl, hl⟩
  · cases hborn with
    | submitted | enqueued => cases hp
    | tookUp hdue hr hl => exact ⟨_, hr, rfl, hl⟩

/-! ## terminal jobs -/

/-- The job has a row in this state. -/
def InState (s : State) (i : Nat) (st : OutboxState) : Prop :=
  ∃ r, s.outbox.get? i = some r ∧ r.state = st

/-- The event is the write of an owner's decision about this job. -/
def ownerDecides (i : Nat) (s : State) : Event → Bool
  | .decideWrite index => (s.decisions[index]?).any fun d => d.1 == i
  | _ => false

/-- One event leaves the state of a terminal job alone, unless it is the owner's
decision about it. -/
theorem Held.terminal_step {s t : State} {e : Event} (hs : Held s) (hsound : Sound s)
    (h : After s t e) (hsweep : sweepFresh s e = true) {i : Nat} {r : OutboxItem}
    (howner : ownerDecides i s e = false) (hr : s.outbox.get? i = some r)
    (hterm : r.state.terminal = true) :
    ∃ r', t.outbox.get? i = some r' ∧ r'.state = r.state := by
  -- a running attempt that has claimed the job would hold it, in flight
  have hfree : ∀ a x, s.attempts.get? a = some x → x.phase.claiming = true → x.job ≠ i := by
    rintro a x hx hp rfl
    obtain ⟨r₀, hr₀, hst, -⟩ := hs a x hx hp
    rw [hr, Option.some.injEq] at hr₀
    rw [hr₀, hst] at hterm
    cases hterm
  obtain ⟨r', hr', hc⟩ := h.row_kept hr
  refine ⟨r', hr', ?_⟩
  generalize t.latest i = l at hc
  cases hc with
  | same | rewritten | fired => rfl
  | claimed hx hp hkey ht =>
      simp only [takeable, Bool.or_eq_true, Bool.and_eq_true, beq_iff_eq] at ht
      rcases ht with hst | ⟨hst, -⟩ <;> rw [hst] at hterm <;> cases hterm
  | drained hdue hb =>
      rw [(due_pending hdue).2.2] at hterm
      cases hterm
  | waited hx hp hj => exact absurd hj (hfree _ _ hx (by rw [hp]; rfl))
  | settled hx hp hj ho => exact absurd hj (hfree _ _ hx (by rw [hp]; rfl))
  | reclaimed hsw =>
      simp only [sweepFresh, hsw, hr, Option.all_some, leaseExpired, Bool.and_eq_true,
        beq_iff_eq] at hsweep
      rw [hsweep.1.1] at hterm
      cases hterm
  | expired hsw =>
      have hst : r.state = .pending := by simpa [sweepFresh, hsw, hr] using hsweep
      rw [hst] at hterm
      cases hterm
  | requeued hm =>
      rw [hsound.requeued_inflight hm hr] at hterm
      cases hterm
  | decided hd => simp [ownerDecides, hd] at howner
  | cancelled hu =>
      simp only [unsent, Bool.and_eq_true, beq_iff_eq] at hu
      rw [hu.1] at hterm
      cases hterm

/-- A run in which leases and rows are taken only from attempts that are over, and
every write after a select still finds the row as selected. -/
def Kept (s : State) (e : Event) : Prop :=
  leaseKept s e = true ∧ sweepFresh s e = true ∧ decisionFresh s e = true

theorem held_of_reaches {s : State} (h : Run.Reaches system Kept s) : Held s :=
  h.invariant_of (fun _ => sound_of_reaches) (fun a x hx => by simp [system] at hx)
    fun _ _ _ hsound hheld hok hst =>
      hheld.step hsound (step_after hst) hok.1 hok.2.1 (decidesTerminal_of_fresh hok.2.2)

/-- **Terminal states are absorbing.**  In a run that meets `Kept`, a job that has
reached a terminal state keeps it, through any further run without an owner's
decision about it. -/
theorem terminal_absorbing {s t : State} {i : Nat} {st : OutboxState}
    (hs : Run.Reaches system Kept s)
    (h : Run.Leads system (fun s e => Kept s e ∧ ownerDecides i s e = false) s t)
    (hst : InState s i st) (hterm : st.terminal = true) : InState t i st := by
  refine h.stable (InState · i st) (fun _ _ h => h.1) ?_ hs hst
  rintro s e t hs ⟨r, hr, rfl⟩ ⟨hkept, howner⟩ hstep
  exact (held_of_reaches hs).terminal_step (sound_of_reaches hs) (step_after hstep) hkept.2.1
    howner hr hterm

/-! ## runs -/

/-- A text is refused for good; then an hour passes, the sweeper runs, and the
process is restarted. -/
def refusedThenRestart : List Event × List Event :=
  ([.requeueSelect, .started, .submit someText .direction, .check 1, .claim 1, .enter 1,
    .sending 1, .settle 1 (.raised (.telegram (.forbidden "bot was blocked"))) 0],
   [.clock 3600000, .reclaimSelect, .expireSelect, .sweepStop, .crash, .requeueSelect,
    .started, .drain "bridge" 1])

/-- In the run of `refusedThenRestart` the refused job stays failed. -/
theorem terminal_absorbing_refused :
    ∃ s t, Run.Leads system (fun s e => Kept s e ∧ ownerDecides 1 s e = false) s t ∧
      InState s 1 .failed ∧ InState t 1 .failed := by
  obtain ⟨s, t, hs, ht, hfinal⟩ := Run.Leads.exists_of_play system
    (fun s e => leaseKept s e && (sweepFresh s e && decisionFresh s e))
    (fun s e => leaseKept s e && (sweepFresh s e && decisionFresh s e) && !ownerDecides 1 s e)
    refusedThenRestart.1 refusedThenRestart.2
    (fun s t => (s.outbox.get? 1).any (·.state == .failed) && t.mode == .up) rfl
  have hst : InState s 1 .failed := by
    simp only [Bool.and_eq_true, Option.any_eq_true, beq_iff_eq] at hfinal
    exact hfinal.1
  have hs' : Run.Reaches system Kept s := hs.mono fun _ _ h => by
    simpa only [Kept, Bool.and_eq_true] using h
  have ht' : Run.Leads system (fun s e => Kept s e ∧ ownerDecides 1 s e = false) s t :=
    ht.mono fun _ _ h => by
      simpa only [Kept, Bool.and_eq_true, Bool.not_eq_true'] using h
  exact ⟨s, t, ht', hst, terminal_absorbing hs' ht' hst rfl⟩

/-- Nobody answers in time: the sweep finds the lease run out while the attempt is
still sending, and makes the job a question for the owner; then the answer comes,
a flood wait, and the attempt puts the job back on the queue. -/
def lateAnswer : List Event × List Event :=
  ([.requeueSelect, .started, .submit someText .direction, .check 1, .claim 1, .enter 1,
    .sending 1, .clock (defaultLeaseMs + 1), .reclaimSelect, .reclaimWrite],
   [.settle 1 (.raised (.telegram (.retryAfter 30 "flood"))) 0])

/-- The code itself does not keep terminal jobs: in the run of `lateAnswer` a job
the sweep has made ambiguous is pending again, and no owner has decided. -/
theorem not_terminal_absorbing :
    ¬ ∀ s t i st, Run.Reaches system Run.anyStep s →
      Run.Leads system (fun s e => ownerDecides i s e = false) s t → InState s i st →
        st.terminal = true → InState t i st := by
  intro hclaim
  obtain ⟨s, t, hs, ht, hfinal⟩ := Run.Leads.exists_of_play system (fun _ _ => true)
    (fun s e => !ownerDecides 1 s e) lateAnswer.1 lateAnswer.2
    (fun s t => (s.outbox.get? 1).any (·.state == .ambiguous) &&
      (t.outbox.get? 1).any (·.state == .pending)) rfl
  simp only [Bool.and_eq_true, Option.any_eq_true, beq_iff_eq] at hfinal
  obtain ⟨hst, r, hr, hpending⟩ := hfinal
  obtain ⟨r', hr', hambiguous⟩ := hclaim s t 1 .ambiguous (hs.mono fun _ _ _ => trivial)
    (ht.mono fun _ _ h => by simpa using h) hst rfl
  rw [hr, Option.some.injEq] at hr'
  rw [← hr', hpending] at hambiguous
  cases hambiguous

end Telemax.Queue
