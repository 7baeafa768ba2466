import Telemax.Queue.SendMark

/-!
# Telemax.Queue.Retried

What the owner may count on after `retry_now` answered True: until the job has been
tried again its payload is there and it does not expire, and until the new attempt
has begun its remote call a recovery pass puts it back on the queue.  `retry_now`
resets the state and the lease only, so the expiry and the mark of the send that
the row brings along from its earlier life decide whether that is so.
-/

namespace Telemax.Queue

open Outbox

/-! ## since the retry -/

/-- What the attempts did since the log was `before`. -/
def State.since (s : State) (before : List Mark) : List Mark :=
  s.log.take (s.log.length - before.length)

/-- An attempt on job `j` entered the sender. -/
def entersFor (j : Nat) : Mark → Bool
  | .entered i .. => i = j
  | _ => false

/-- An attempt on job `j` began its remote call. -/
def firesFor (j : Nat) : Mark → Bool
  | .fired i .. => i = j
  | _ => false

/-- Job `j` has been tried again. -/
def State.triedSince (s : State) (before : List Mark) (j : Nat) : Bool :=
  (s.since before).any (entersFor j)

def State.calledSince (s : State) (before : List Mark) (j : Nat) : Bool :=
  (s.since before).any (firesFor j)

/-- The job whose row this event of a recovery pass writes. -/
def State.recovers? (s : State) : Event → Option Nat
  | .reclaimWrite =>
      match s.sweeper with
      | .reclaiming _ ((i, _) :: _) => some i
      | _ => none
  | .requeueWrite =>
      match s.mode with
      | .requeueing ((i, _) :: _) => some i
      | _ => none
  | _ => none

/-- The retry is honoured so far. -/
structure Honoured (j : Nat) (before : List Mark) (s : State) : Prop where
  /-- Not tried yet: the payload is there, and the job has not expired. -/
  waits : s.triedSince before j = false →
    ∃ r, s.outbox.get? j = some r ∧ r.payload ≠ .cleared ∧ r.state ≠ .expired
  /-- No remote call begun yet: recovery puts the job back on the queue. -/
  requeues : s.calledSince before j = false → ∀ e t, step s e = some t → s.recovers? e = some j →
    ∃ r, t.outbox.get? j = some r ∧ r.state = .pending

/-! ## what a run has to meet -/

/-- Before the write of `retry_now`: the payload is still there, no send of the job has
been marked, no attempt holds it, and the sweep in progress neither expires it nor
makes a question of it. -/
def readyForRetry (s : State) (j : Nat) : Bool :=
  ((s.outbox.get? j).any fun r => r.payload != .cleared && !started r) &&
    !(s.attempts.holdsOf fun _ x => x.job == j && x.phase.claiming) &&
    match s.sweeper with
    | .idle => true
    | .reclaiming _ todo => !todo.contains (j, true)
    | .expiring todo => !todo.contains j

/-- After it: no sweep finds the job overdue before it has been tried, the owner does not
resolve it before that, and no payload is rewritten to nothing. -/
def keepsRetry (j : Nat) (before : List Mark) (s : State) : Event → Bool
  | .expireSelect =>
      s.triedSince before j || !(s.outbox.get? j).any (overdue s.now)
  | .decideWrite index =>
      s.triedSince before j ||
        (s.decisions[index]?).all fun d => d.1 != j || d.2.1 != .resolve
  | .replacePendingPayload _ payload | .replaceFailedPayload _ payload => payload != .cleared
  | _ => true

/-! ## one event -/

variable {s t : State} {e : Event} {j : Nat} {before : List Mark}

theorem State.since_eq {new : List Mark} (h : s.log = new ++ before) : s.since before = new := by
  simp [since, h]

theorem since_step (hlog : before <:+ s.log) (h : After s t e) :
    t.since before = marksOf s e ++ s.since before ∧ before <:+ t.log := by
  obtain ⟨new, hnew⟩ := hlog
  have ht : t.log = (marksOf s e ++ new) ++ before := by rw [h.log, ← hnew, List.append_assoc]
  rw [State.since_eq hnew.symm, State.since_eq ht]
  exact ⟨rfl, _, ht.symm⟩

/-- What was not seen after the event was not seen before it, nor in it. -/
theorem any_since_step {p : Mark → Bool} (hlog : before <:+ s.log) (h : After s t e)
    (hno : (t.since before).any p = false) :
    (marksOf s e).any p = false ∧ (s.since before).any p = false := by
  rw [(since_step hlog h).1, List.any_append, Bool.or_eq_false_iff] at hno
  exact hno

theorem entersFor_enter {a : Nat} {x : Attempt} (hx : s.attempts.get? a = some x)
    (hj : x.job = j) : (marksOf s (.enter a)).any (entersFor j) = true := by
  simp [marksOf, hx, entersFor, hj]

theorem firesFor_sending {a : Nat} {x : Attempt} (hx : s.attempts.get? a = some x)
    (hj : x.job = j) : (marksOf s (.sending a)).any (firesFor j) = true := by
  simp [marksOf, hx, firesFor, hj]

/-! ### the sweeper and the process -/

/-- What an event can make of the sweeper. -/
inductive SweeperChange (s : State) (e : Event) : Sweeper → Prop
  | same : SweeperChange s e s.sweeper
  | stopped : SweeperChange s e .idle
  | selected : SweeperChange s e (.reclaiming s.now (s.outbox.expiredLeases s.now))
  | reclaimed {stamp : Nat} {row : Nat × Bool} {rest : List (Nat × Bool)}
      (hs : s.sweeper = .reclaiming stamp (row :: rest)) :
      SweeperChange s e (.reclaiming stamp rest)
  | overdue (he : e = .expireSelect) :
      SweeperChange s e (.expiring (s.outbox.overdueRows s.now))
  | expired {i : Nat} {rest : List Nat} (hs : s.sweeper = .expiring (i :: rest)) :
      SweeperChange s e (.expiring rest)

theorem SweeperChange.of_eq (h : t.sweeper = s.sweeper) : SweeperChange s e t.sweeper := by
  rw [h]
  exact .same

@[simp] theorem State.foldl_takeUp_sweeper {batch : Nat} (rows : List (Nat × OutboxItem))
    (s : State) : (rows.foldl (takeUp batch) s).sweeper = s.sweeper := by
  induction rows generalizing s with
  | nil => rfl
  | cons row rows ih => exact ih _

theorem check_sweeper {a : Nat} {x : Attempt} (h : s.check a x = some t) :
    t.sweeper = s.sweeper := by
  unfold State.check at h
  split at h
  · cases h
    rfl
  · split at h <;> cases h
    rfl
  · cases h

theorem stepUp_sweeper (h : stepUp s e = some t) : SweeperChange s e t.sweeper := by
  cases e with
  | submit spec barrier =>
      simp only [stepUp, Option.ite_none_right_eq_some, Option.some.injEq] at h
      obtain ⟨-, rfl⟩ := h
      cases barrier <;> exact .same
  | check a =>
      obtain ⟨x, -, hcheck⟩ := Option.bind_eq_some_iff.mp h
      exact .of_eq (check_sweeper hcheck)
  | claim a =>
      obtain ⟨x, -, -, hclaim⟩ := State.ofPhase_eq_some h
      simp only [Option.ite_none_right_eq_some, Option.some.injEq] at hclaim
      obtain ⟨-, rfl⟩ := hclaim
      unfold State.claim
      split <;> exact .same
  | drain bridge limit =>
      simp only [stepUp, Option.ite_none_left_eq_some, Option.some.injEq] at h
      obtain ⟨-, rfl⟩ := h
      exact .of_eq (by simp [State.drain])
  | wait a | enter a | sending a | sendingLost a =>
      obtain ⟨x, -, -, ht⟩ := State.ofPhase_eq_some h
      obtain rfl := Option.some.inj ht
      exact .same
  | settle a outcome backoff =>
      obtain ⟨x, -, -, hsettle⟩ := State.ofPhase_eq_some h
      simp only [Option.ite_none_right_eq_some, Option.some.injEq] at hsettle
      obtain ⟨-, rfl⟩ := hsettle
      unfold State.settle
      split <;> exact .same
  | die a =>
      obtain ⟨x, -, rfl⟩ := Option.map_eq_some_iff.mp h
      exact .same
  | enqueueBatch specs =>
      simp only [stepUp] at h
      split at h <;> cases h
      exact .same
  | reclaimSelect =>
      simp only [stepUp] at h
      split at h <;> cases h
      exact .selected
  | reclaimWrite =>
      simp only [stepUp] at h
      split at h
      · next hs =>
          cases h
          exact .reclaimed hs
      · cases h
  | expireSelect =>
      simp only [stepUp] at h
      split at h <;> cases h
      exact .overdue rfl
  | expireWrite =>
      simp only [stepUp] at h
      split at h
      · next hs =>
          cases h
          exact .expired hs
      · cases h
  | decide job decision =>
      simp only [stepUp] at h
      split at h
      · split at h <;> cases h
        exact .same
      · cases h
  | decideWrite index =>
      simp only [stepUp] at h
      split at h <;> cases h
      exact .same
  | sweepStop =>
      cases h
      exact .stopped
  | cancelPending key reason | replacePendingPayload key payload
  | replaceFailedPayload key payload =>
      cases h
      exact .same
  | clock now | crash | requeueSelect | requeueWrite | started => cases h

theorem step_sweeper (h : step s e = some t) : SweeperChange s e t.sweeper := by
  rcases step_cases h with ⟨now, rfl, rfl⟩ | ⟨rfl, rfl⟩ | ⟨-, hup⟩ | ⟨-, hstart⟩
  · exact .same
  · exact .stopped
  · exact stepUp_sweeper hup
  · cases e with
    | requeueSelect | requeueWrite | started =>
        simp only [stepStart] at hstart
        split at hstart <;> cases hstart
        exact .same
    | _ => cases hstart

/-- The rows `requeue_inflight` still has to write were there before, or selected now. -/
theorem step_requeueing (h : step s e = some t) {todo : List (Nat × Bool)}
    (ht : t.mode = .requeueing todo) :
    todo = s.outbox.inflightRows ∨
      ∃ todo', s.mode = .requeueing todo' ∧ ∀ row ∈ todo, row ∈ todo' := by
  rcases step_cases h with ⟨now, rfl, rfl⟩ | ⟨rfl, rfl⟩ | ⟨hmode, hup⟩ | ⟨-, hstart⟩
  · exact .inr ⟨todo, ht, fun _ h => h⟩
  · cases ht
  · rw [(stepUp_frame hup).1, hmode] at ht
    cases ht
  · cases e with
    | requeueSelect =>
        simp only [stepStart] at hstart
        split at hstart <;> cases hstart
        cases ht
        exact .inl rfl
    | requeueWrite =>
        simp only [stepStart] at hstart
        split at hstart
        · next hm =>
            cases hstart
            cases ht
            exact .inr ⟨_, hm, fun _ h => List.mem_cons_of_mem _ h⟩
        · cases hstart
    | started =>
        simp only [stepStart] at hstart
        split at hstart <;> cases hstart
        cases ht
    | _ => cases hstart

/-! ## until it is tried -/

/-- Job `j` waits: nothing is about to expire or settle it. -/
structure Waiting (j : Nat) (s : State) : Prop where
  row : ∃ r, s.outbox.get? j = some r ∧ r.payload ≠ .cleared ∧ r.state ≠ .expired
  outside : ∀ a x, s.attempts.get? a = some x → x.job = j → x.phase ≠ .inSender
  unlisted : ∀ todo, s.sweeper = .expiring todo → j ∉ todo

theorem mem_overdueRows {o : Outbox} {stamp : Nat} (h : j ∈ o.overdueRows stamp) :
    (o.get? j).any (overdue stamp) = true := by
  obtain ⟨⟨i, r⟩, hr, rfl⟩ := List.mem_map.mp h
  obtain ⟨hget, hover⟩ := Table.mem_select.mp hr
  rw [hget]
  exact hover

namespace Waiting

theorem row_step (hs : Waiting j s) (hlog : before <:+ s.log)
    (hok : keepsRetry j before s e = true) (h : After s t e)
    (hno : t.triedSince before j = false) :
    ∃ r, t.outbox.get? j = some r ∧ r.payload ≠ .cleared ∧ r.state ≠ .expired := by
  obtain ⟨r, hr, hpayload, hstate⟩ := hs.row
  obtain ⟨r', hr', hc⟩ := h.row_kept hr
  refine ⟨r', hr', ?_⟩
  have hold : s.triedSince before j = false := (any_since_step hlog h hno).2
  generalize t.latest j = l at hc
  cases hc with
  | same => exact ⟨hpayload, hstate⟩
  | claimed | drained | waited => exact ⟨hpayload, by simp [lease, defer]⟩
  | fired hx hp hj => exact absurd hp (hs.outside _ _ hx hj)
  | settled hx hp hj => exact absurd hp (hs.outside _ _ hx hj)
  | reclaimed | requeued =>
      unfold recover
      split <;> exact ⟨hpayload, by simp [markAmbiguous, requeue]⟩
  | expired hsweep => exact absurd List.mem_cons_self (hs.unlisted _ hsweep)
  | @decided index decision read hd =>
      have hkept : decision ≠ .resolve := by simpa [keepsRetry, hold, hd] using hok
      cases decision with
      | resolve => exact absurd rfl hkept
      | retryNow | archive => exact ⟨hpayload, by simp [Decision.write]⟩
  | cancelled => exact ⟨hpayload, by simp [cancel]⟩
  | @rewritten _ key payload _ _ he =>
      have hsome : payload ≠ .cleared := by
        rcases he with ⟨rfl, -⟩ | ⟨rfl, -⟩ <;> simpa [keepsRetry] using hok
      exact ⟨hsome, hstate⟩

theorem outside_step (hs : Waiting j s) (hlog : before <:+ s.log) (h : After s t e)
    (hno : t.triedSince before j = false) {a : Nat} {y : Attempt}
    (hy : t.attempts.get? a = some y) (hj : y.job = j) : y.phase ≠ .inSender := by
  have hquiet : (marksOf s e).any (entersFor j) = false := (any_since_step hlog h hno).1
  rcases h.attempt_from hy with ⟨x, hx, hc⟩ | ⟨-, hborn⟩
  · cases hc with
    | same => exact hs.outside a _ hx hj
    | entered => simp [entersFor_enter hx hj] at hquiet
    | marked hp => exact absurd hp (hs.outside a _ hx hj)
    | settled => simp
    | ended hp => rcases hp with rfl | rfl <;> simp
    | _ => simp
  · cases hborn with
    | tookUp => simp [Attempt.ofRow]
    | _ => simp

theorem unlisted_step (hs : Waiting j s) (hold : s.triedSince before j = false)
    (hok : keepsRetry j before s e = true) (h : step s e = some t) :
    ∀ todo, t.sweeper = .expiring todo → j ∉ todo := by
  have hc := step_sweeper h
  intro todo htodo
  rw [htodo] at hc
  generalize hnext : Sweeper.expiring todo = next at hc
  cases hc with
  | same => exact hs.unlisted todo hnext.symm
  | stopped | selected | reclaimed => cases hnext
  | overdue he =>
      cases hnext
      subst he
      intro hmem
      simp [keepsRetry, hold, mem_overdueRows hmem] at hok
  | expired hsweep =>
      cases hnext
      exact fun hmem => hs.unlisted _ hsweep (List.mem_cons_of_mem _ hmem)

/-- One event: the job waits on, or it is tried. -/
theorem step (hs : Waiting j s) (hlog : before <:+ s.log) (hok : keepsRetry j before s e = true)
    (h : Queue.step s e = some t) (hno : t.triedSince before j = false) : Waiting j t where
  row := hs.row_step hlog hok (step_after h) hno
  outside _ _ := hs.outside_step hlog (step_after h) hno
  unlisted := hs.unlisted_step (any_since_step hlog (step_after h) hno).2 hok h

end Waiting

/-! ## until it is called -/

/-- No send of job `j` is marked, and no recovery pass believes one is. -/
structure Unmarked (j : Nat) (s : State) : Prop where
  row : ∃ r, s.outbox.get? j = some r ∧ started r = false
  reclaim : ∀ stamp todo, s.sweeper = .reclaiming stamp todo → (j, true) ∉ todo
  requeue : ∀ todo, s.mode = .requeueing todo → (j, true) ∉ todo

/-- What recovery reads of a row is its mark. -/
theorem started_of_mem_select {o : Outbox} {p : Nat → OutboxItem → Bool}
    (h : (j, true) ∈ (o.select p).map fun r => (r.1, started r.2)) :
    ∃ r, o.get? j = some r ∧ started r = true := by
  obtain ⟨⟨i, r⟩, hr, heq⟩ := List.mem_map.mp h
  obtain ⟨rfl, hstarted⟩ := Prod.mk.inj heq
  exact ⟨r, (Table.mem_select.mp hr).1, hstarted⟩

/-- A settlement marks nothing. -/
theorem settleRow_started (x : Attempt) (outcome : Outcome) (backoff stamp : Nat) {r : OutboxItem}
    (h : started r = false) : started (x.settleRow outcome backoff stamp r) = false := by
  have hfailure : ∀ attempts error v,
      started (handleFailure attempts error v backoff stamp r) = false := by
    intro attempts error v
    simp only [handleFailure]
    split
    · exact h
    · rfl
  cases outcome with
  | delivered remoteId => rfl
  | raised error =>
      simp only [Attempt.settleRow]
      cases x.via with
      | inline =>
          simp only [settleInline]
          cases (settle x.spec.kind error x.marked).verdict with
          | ambiguous | permanent => exact h
          | defer | retry => rfl
      | worker batch attempts =>
          simp only [settleWorker]
          cases (settle x.spec.kind error x.marked).verdict with
          | ambiguous => exact h
          | defer => rfl
          | permanent | retry =>
              split
              · rfl
              · exact hfailure ..

namespace Unmarked

theorem row_step (hs : Unmarked j s) (hlog : before <:+ s.log) (h : After s t e)
    (hno : t.calledSince before j = false) :
    ∃ r, t.outbox.get? j = some r ∧ started r = false := by
  obtain ⟨r, hr, hmark⟩ := hs.row
  obtain ⟨r', hr', hc⟩ := h.row_kept hr
  refine ⟨r', hr', ?_⟩
  have hquiet : (marksOf s e).any (firesFor j) = false := (any_since_step hlog h hno).1
  generalize t.latest j = l at hc
  cases hc with
  | same | claimed | drained | expired | cancelled | rewritten => exact hmark
  | waited => rfl
  | fired hx hp hj => simp [firesFor_sending hx hj] at hquiet
  | settled => exact settleRow_started _ _ _ _ hmark
  | reclaimed | requeued =>
      unfold recover
      split <;> exact hmark
  | @decided index decision read hd => cases decision <;> exact hmark

theorem none_selected (hs : Unmarked j s) {p : Nat → OutboxItem → Bool} :
    (j, true) ∉ (s.outbox.select p).map fun r => (r.1, started r.2) := by
  intro hmem
  obtain ⟨r, hr, hstarted⟩ := started_of_mem_select hmem
  obtain ⟨r', hr', hmark⟩ := hs.row
  rw [hr, Option.some.injEq] at hr'
  rw [hr', hmark] at hstarted
  cases hstarted

/-- One event: still no send is marked, or the call has begun. -/
theorem step (hs : Unmarked j s) (hlog : before <:+ s.log) (h : Queue.step s e = some t)
    (hno : t.calledSince before j = false) : Unmarked j t where
  row := hs.row_step hlog (step_after h) hno
  reclaim := by
    have hc := step_sweeper h
    intro stamp todo htodo
    rw [htodo] at hc
    generalize hnext : Sweeper.reclaiming stamp todo = next at hc
    cases hc with
    | same => exact hs.reclaim stamp todo hnext.symm
    | stopped | overdue | expired => cases hnext
    | selected =>
        cases hnext
        exact hs.none_selected
    | reclaimed hsweep =>
        cases hnext
        exact fun hmem => hs.reclaim _ _ hsweep (List.mem_cons_of_mem _ hmem)
  requeue := by
    intro todo htodo
    rcases step_requeueing h htodo with rfl | ⟨todo', htodo', hsub⟩
    · exact hs.none_selected
    · exact fun hmem => hs.requeue todo' htodo' (hsub _ hmem)

/-- A recovery pass that writes the job puts it back on the queue. -/
theorem recovers (hs : Unmarked j s) (h : Queue.step s e = some t)
    (hrec : s.recovers? e = some j) : ∃ r, t.outbox.get? j = some r ∧ r.state = .pending := by
  obtain ⟨r, hr, -⟩ := hs.row
  have hwritten : ∀ f : OutboxItem → OutboxItem, (∀ r, (f r).state = .pending) →
      ∃ r, (s.outbox.modify j f).get? j = some r ∧ r.state = .pending := fun f hf =>
    ⟨f r, by rw [Table.get?_modify_self, hr]; rfl, hf r⟩
  rcases step_cases h with ⟨now, rfl, rfl⟩ | ⟨rfl, rfl⟩ | ⟨-, hup⟩ | ⟨-, hstart⟩
  · cases hrec
  · cases hrec
  · cases e with
    | reclaimWrite =>
        simp only [stepUp] at hup
        split at hup
        · next stamp i wasStarted rest hsweep =>
            cases hup
            simp only [State.recovers?, hsweep, Option.some.injEq] at hrec
            subst hrec
            have hfresh : wasStarted = false := by
              refine Bool.eq_false_iff.mpr fun hw => ?_
              exact hs.reclaim stamp _ hsweep (hw ▸ List.mem_cons_self)
            exact hwritten _ fun r => by rw [recover_state, hfresh]; rfl
        · cases hup
    | requeueWrite => cases hup
    | _ => cases hrec
  · cases e with
    | requeueWrite =>
        simp only [stepStart] at hstart
        split at hstart
        · next i wasStarted rest hmode =>
            cases hstart
            simp only [State.recovers?, hmode, Option.some.injEq] at hrec
            subst hrec
            have hfresh : wasStarted = false := by
              refine Bool.eq_false_iff.mpr fun hw => ?_
              exact hs.requeue _ hmode (hw ▸ List.mem_cons_self)
            exact hwritten _ fun r => by rw [recover_state, hfresh]; rfl
        · cases hstart
    | reclaimWrite => cases hstart
    | _ => cases hrec

end Unmarked

/-! ## every run -/

/-- A row `retry_now` has just been written to. -/
theorem after_retry {index : Nat} {read : OutboxItem}
    (hd : s.decisions[index]? = some (j, .retryNow, read))
    (h : step s (.decideWrite index) = some t) (hready : readyForRetry s j = true) :
    Waiting j t ∧ Unmarked j t := by
  simp only [readyForRetry, Bool.and_eq_true, Option.any_eq_true, bne_iff_ne,
    Bool.not_eq_true'] at hready
  obtain ⟨⟨⟨r, hr, hpayload, hmark⟩, hfree⟩, hsweep⟩ := hready
  rcases step_cases h with ⟨now, he, -⟩ | ⟨he, -⟩ | ⟨hmode, hup⟩ | ⟨-, hstart⟩
  · cases he
  · cases he
  · simp only [stepUp, hd, Option.some.injEq] at hup
    subst hup
    have hrow : (s.outbox.modify j fun r => Decision.write read s.now r .retryNow).get? j =
        some (Decision.write read s.now r .retryNow) := by
      rw [Table.get?_modify_self, hr]
      rfl
    constructor
    · refine ⟨⟨_, hrow, hpayload, by simp [Decision.write]⟩, ?_, ?_⟩
      · rintro a x hx rfl hp
        have hheld : (s.attempts.holdsOf fun _ y => y.job == x.job && y.phase.claiming) = true :=
          Table.holdsOf_iff.mpr ⟨a, x, hx, by simp [hp, Phase.claiming]⟩
        rw [hfree] at hheld
        cases hheld
      · rintro todo htodo
        have htodo' : s.sweeper = .expiring todo := htodo
        simpa [htodo'] using hsweep
    · refine ⟨⟨_, hrow, hmark⟩, ?_, ?_⟩
      · rintro stamp todo htodo
        have htodo' : s.sweeper = .reclaiming stamp todo := htodo
        simpa [htodo'] using hsweep
      · rintro todo htodo
        have htodo' : s.mode = .requeueing todo := htodo
        rw [hmode] at htodo'
        cases htodo'
  · cases hstart

/-- **The owner's retry is honoured.**  `retry_now` is written where the row carries
nothing of its earlier life that a later step reads; then in every run in which no
sweep finds the job overdue first, its payload is there and it has not expired until
it is tried, and recovery puts it back on the queue until its remote call has begun. -/
theorem retry_honoured {index : Nat} {read : OutboxItem} {u : State}
    (hd : s.decisions[index]? = some (j, .retryNow, read))
    (hw : step s (.decideWrite index) = some t) (hready : readyForRetry s j = true)
    (h : Run.Leads system (fun s e => keepsRetry j t.log s e = true) t u) :
    Honoured j t.log u := by
  obtain ⟨hwaiting, hunmarked⟩ := after_retry hd hw hready
  have hrun : t.log <:+ u.log ∧ (u.triedSince t.log j = false → Waiting j u) ∧
      (u.calledSince t.log j = false → Unmarked j u) := by
    induction h with
    | refl => exact ⟨List.suffix_rfl, fun _ => hwaiting, fun _ => hunmarked⟩
    | step _ hok hst ih =>
        obtain ⟨hlog, hwait, hmark⟩ := ih
        have hafter := step_after hst
        refine ⟨(since_step hlog hafter).2, fun hno => ?_, fun hno => ?_⟩
        · exact (hwait (any_since_step hlog hafter hno).2).step hlog hok hst hno
        · exact (hmark (any_since_step hlog hafter hno).2).step hlog hst hno
  exact ⟨fun hno => (hrun.2.1 hno).row, fun hno e v hst hrec => (hrun.2.2 hno).recovers hst hrec⟩

/-! ## two runs -/

/-- A text is refused for good before its call; a day later the owner has it tried again. -/
def retriedNextDay : List Event :=
  [.requeueSelect, .started, .submit someText .direction, .check 1, .claim 1, .enter 1,
   .settle 1 (.raised (.permanentDelivery "no such chat")) 0, .clock (defaultTtlMs + 1000),
   .decide 1 .retryNow]

/-- The worker takes it up at once, and the process dies. -/
def triedAgain : List Event := [.drain "bridge" 1, .check 2, .crash, .requeueSelect]

/-- The sweeper runs first. -/
def sweptAway : List Event := [.reclaimSelect, .expireSelect, .expireWrite]

/-- Taken up before the sweeper ran, the job is there for `requeue_inflight`. -/
theorem retry_honoured_triedAgain :
    ∃ t u, Run.Leads system (fun s e => keepsRetry 1 t.log s e = true) t u ∧
      u.recovers? .requeueWrite = some 1 ∧ Honoured 1 t.log u := by
  obtain ⟨s, -, hs⟩ := Run.Reaches.exists_of_play system (fun _ _ => true) retriedNextDay
    (fun s => (s.decisions[0]?).any (fun d => d.1 == 1 && d.2.1 == .retryNow) &&
      readyForRetry s 1 && (step s (.decideWrite 0)).any fun t =>
        (Run.play system (keepsRetry 1 t.log) t triedAgain).any fun u =>
          u.recovers? .requeueWrite == some 1) (by decide +kernel)
  simp only [Bool.and_eq_true, Option.any_eq_true, beq_iff_eq] at hs
  obtain ⟨⟨⟨⟨j, decision, read⟩, hd, rfl, rfl⟩, hready⟩, t, ht, u, hu, hrec⟩ := hs
  have hrun : Run.Leads system (fun s e => keepsRetry 1 t.log s e = true) t u :=
    .of_play .refl hu
  exact ⟨t, u, hrun, hrec, retry_honoured hd ht hready hrun⟩

/-- The job was a day old, so the sweep after the owner's decision clears it untried. -/
theorem not_retry_honoured :
    ¬ ∀ s t u index j read, Run.Reaches system Run.anyStep s →
      s.decisions[index]? = some (j, .retryNow, read) → step s (.decideWrite index) = some t →
      Run.Leads system Run.anyStep t u → Honoured j t.log u := by
  intro hall
  obtain ⟨s, hreach, hs⟩ := Run.Reaches.exists_of_play system (fun _ _ => true) retriedNextDay
    (fun s => (s.decisions[0]?).any (fun d => d.1 == 1 && d.2.1 == .retryNow) &&
      (step s (.decideWrite 0)).any fun t =>
        (Run.play system (fun _ _ => true) t sweptAway).any fun u =>
          !u.triedSince t.log 1 && (u.outbox.get? 1).any fun r => r.payload == .cleared)
    (by decide +kernel)
  simp only [Bool.and_eq_true, Option.any_eq_true, beq_iff_eq, Bool.not_eq_true'] at hs
  obtain ⟨⟨⟨j, decision, read⟩, hd, rfl, rfl⟩, t, ht, u, hu, huntried, r, hr, hcleared⟩ := hs
  let everything : State → Event → Bool := fun _ _ => true
  have hrun : Run.Leads system (fun s e => everything s e = true) t u := .of_play .refl hu
  have hhonoured := hall s t u 0 1 read (hreach.mono fun _ _ _ => trivial) hd ht
    (hrun.mono fun _ _ _ => trivial)
  obtain ⟨r', hr', hkept, -⟩ := hhonoured.waits huntried
  rw [hr, Option.some.injEq] at hr'
  exact hkept (hr' ▸ hcleared)

end Telemax.Queue
