import Telemax.Queue.NoDoubleSend

/-!
# Telemax.Queue.SendMark

`send_started_at` should say that the attempt which holds the job has begun its
remote call: the recovery passes, `cancel_pending` and `replace_pending_payload`
read it so.  Most writes that put a job back on the queue clear it; `retry_now`
and the requeue of the sweep do not, `claim_for_attempt` takes over a row with
the mark of the attempt before, and `mark_sending` names the job and not the
claim.

`markGuard` is what these four would have to find.  In a run that meets it the
mark means what its readers take it for (`send_mark`).
-/

namespace Telemax.Queue

open Outbox

/-- This mark is the begin of a send of attempt `a` on job `i`. -/
def firedBy (i a : Nat) : Mark → Bool
  | .fired j b _ _ => j == i && b == a
  | _ => false

/-- Has the attempt that made the last claim of this job begun its remote call? -/
def State.begun (s : State) (i : Nat) : Bool :=
  (s.latest i).any fun a => s.log.any (firedBy i a)

/-- What the mark of a row says: nothing where the row is pending, and whether the
holder's send has begun where it is in flight. -/
def MarkOf (begun : Bool) (r : OutboxItem) : Prop :=
  (r.state = .pending → started r = false) ∧ (r.state = .inflight → started r = begun)

theorem MarkOf.of_terminal {begun : Bool} {r : OutboxItem} (h : r.state.terminal = true) :
    MarkOf begun r :=
  ⟨fun hst => (by rw [hst] at h; cases h), fun hst => (by rw [hst] at h; cases h)⟩

theorem MarkOf.of_pending {begun : Bool} {r : OutboxItem} (h : r.state = .pending)
    (hfresh : started r = false) : MarkOf begun r :=
  ⟨fun _ => hfresh, fun hst => (by rw [h] at hst; cases hst)⟩

theorem MarkOf.of_inflight {begun : Bool} {r : OutboxItem} (h : r.state = .inflight)
    (hmark : started r = begun) : MarkOf begun r :=
  ⟨fun hst => (by rw [h] at hst; cases hst), fun _ => hmark⟩

/-- The mark of every row says what it should. -/
def MarkMeans (s : State) : Prop :=
  ∀ i r, s.outbox.get? i = some r → MarkOf (s.begun i) r

/-! ## what a run has to meet -/

/-- What the writes that leave a mark standing, or set one, have to find.

* `mark_sending` finds the job settled, or still in the hands of its own attempt.
* `claim_for_attempt` takes over no row with a mark on it.
* A write of `reclaim_expired_leases` puts no marked row back on the queue, and
  finds a row that is in flight with the mark it read.
* `retry_now` finds no mark. -/
def markGuard (s : State) : Event → Bool
  | .sending a =>
      (s.attempts.get? a).all fun x => (s.outbox.get? x.job).all fun r =>
        r.state.terminal || (r.state == .inflight && s.lastClaim a)
  | .claim a =>
      (s.attempts.get? a).all fun x =>
        (s.outbox.bySourceKey x.spec.sourceKey).all fun row =>
          !takeable row.2 s.now || !started row.2
  | .reclaimWrite =>
      match s.sweeper with
      | .reclaiming _ ((i, wasStarted) :: _) =>
          (s.outbox.get? i).all fun r =>
            if r.state = .inflight then started r == wasStarted else wasStarted || !started r
      | _ => true
  | .decideWrite index =>
      (s.decisions[index]?).all fun d =>
        d.2.1 != .retryNow || (s.outbox.get? d.1).all fun r => !started r
  | _ => true

/-! ## one event -/

/-- An event that does not write a job for an attempt tells nothing about its send. -/
theorem begun_of_notWritten {s t : State} {e : Event} {i : Nat} (h : After s t e)
    (hw : NotWritten s e i) (hl : t.latest i = s.latest i) : t.begun i = s.begun i := by
  have hno : ∀ a, (marksOf s e).any (firedBy i a) = false := by
    intro a
    rw [List.any_eq_false]
    intro m hm
    cases e with
    | enter b =>
        cases hx : s.attempts.get? b with
        | none => simp [marksOf, hx] at hm
        | some x =>
            simp only [marksOf, hx, Option.elim_some, List.mem_singleton] at hm
            simp [hm, firedBy]
    | sending b =>
        cases hx : s.attempts.get? b with
        | none => simp [marksOf, hx] at hm
        | some x =>
            simp only [marksOf, hx, Option.elim_some, List.mem_singleton] at hm
            simp [hm, firedBy, hw b x rfl hx]
    | settle b outcome backoff =>
        cases hx : s.attempts.get? b with
        | none => simp [marksOf, hx] at hm
        | some x =>
            simp only [marksOf, hx, Option.elim_some] at hm
            split at hm
            · simp only [List.mem_singleton] at hm
              simp [hm, firedBy]
            · cases hm
    | _ => cases hm
  simp [State.begun, hl, h.log, List.any_append, hno]

/-- An attempt that has not got as far as the sender has begun nothing. -/
theorem Logged.not_begun {s t : State} {e : Event} (hs : Logged s) (h : After s t e) {i a : Nat}
    (hmarks : marksOf s e = []) (hl : t.latest i = some a)
    (hx : ∀ x, s.attempts.get? a = some x → x.phase.mayHaveFired = false) :
    t.begun i = false := by
  simp only [State.begun, hl, Option.any_some, h.log, hmarks, List.nil_append]
  rw [List.any_eq_false]
  intro m hm hfired
  obtain ⟨⟨x, hget, -, hmay⟩, -⟩ := hs m hm
  have ha : Mark.attempt m = a := by
    cases m <;> simp [firedBy] at hfired
    exact hfired.2
  rw [ha] at hget
  rw [hx x hget] at hmay
  cases hmay

/-- What an attempt writes when it settles is not in flight, and where it goes back
to the queue the mark is gone. -/
theorem settleRow_mark (x : Attempt) (outcome : Outcome) (backoff stamp : Nat) (r : OutboxItem)
    (begun : Bool) : MarkOf begun (x.settleRow outcome backoff stamp r) := by
  have hfailure : ∀ attempts error v,
      MarkOf begun (handleFailure attempts error v backoff stamp r) := by
    intro attempts error v
    simp only [handleFailure]
    split
    · exact .of_terminal rfl
    · exact .of_pending rfl rfl
  cases outcome with
  | delivered remoteId => exact .of_terminal rfl
  | raised error =>
      simp only [Attempt.settleRow]
      cases x.via with
      | inline =>
          simp only [settleInline]
          cases (settle x.spec.kind error x.marked).verdict with
          | ambiguous | permanent => exact .of_terminal rfl
          | defer | retry => exact .of_pending rfl rfl
      | worker batch attempts =>
          simp only [settleWorker]
          cases (settle x.spec.kind error x.marked).verdict with
          | ambiguous => exact .of_terminal rfl
          | defer => exact .of_pending rfl rfl
          | permanent | retry =>
              split
              · exact .of_pending rfl rfl
              · exact hfailure ..

/-- **One step**: what a guarded event makes of the mark of a row. -/
theorem MarkMeans.change {s t : State} {e : Event} (hs : MarkMeans s) (hsound : Sound s)
    (h : After s t e) (hok : markGuard s e = true) {i : Nat} {r r' : OutboxItem}
    (hr : s.outbox.get? i = some r) (hc : RowChange s i r e r' (t.latest i)) :
    MarkOf (t.begun i) r' := by
  obtain ⟨hpending, hinflight⟩ := hs i r hr
  generalize hl : t.latest i = l at hc
  cases hc with
  | same hw =>
      rw [begun_of_notWritten h hw hl]
      exact ⟨hpending, hinflight⟩
  | @claimed a x hx hp hkey ht =>
      have hfresh : started r = false := by simpa [markGuard, hx, hkey, ht] using hok
      have hnone : t.begun i = false := hsound.logged.not_begun h rfl hl fun y hy => by
        rw [hx, Option.some.injEq] at hy
        rw [← hy, hp]
        rfl
      exact .of_inflight rfl (hnone ▸ hfresh)
  | @drained bridge limit b hdue hb =>
      have hfresh : started r = false := hpending (due_pending hdue).2.2
      have hnone : t.begun i = false := hsound.logged.not_begun h rfl hl fun y hy => by
        rw [hb] at hy
        cases hy
      exact .of_inflight rfl (hnone ▸ hfresh)
  | waited => exact .of_pending rfl rfl
  | @fired a x hx hp hj =>
      have hguard : r.state.terminal = true ∨ (r.state = .inflight ∧ s.lastClaim a = true) := by
        simpa [markGuard, hx, hj, hr] using hok
      rcases hguard with hterm | ⟨hst, hlast⟩
      · exact .of_terminal hterm
      · have hlatest : s.latest i = some a := hj ▸ lastClaim_eq hx hlast
        have hbegun : t.begun i = true := by
          simp [State.begun, hl, hlatest, h.log, marksOf, hx, firedBy, hj]
        exact .of_inflight hst (hbegun ▸ rfl)
  | settled => exact settleRow_mark ..
  | @reclaimed stamp wasStarted rest hsweep =>
      cases wasStarted with
      | true => exact .of_terminal rfl
      | false =>
          have hfresh : started r = false := by
            by_cases hst : r.state = .inflight
            · simpa [markGuard, hsweep, hr, hst] using hok
            · simpa [markGuard, hsweep, hr, hst] using hok
          exact .of_pending rfl hfresh
  | expired => exact .of_terminal rfl
  | @requeued wasStarted rest hm =>
      obtain ⟨-, hrows⟩ := (hsound.booting (by rw [hm]; simp)).2 _ hm
      obtain ⟨r₀, hr₀, -, hstarted⟩ := hrows i wasStarted List.mem_cons_self
      rw [hr, Option.some.injEq] at hr₀
      subst hr₀
      cases wasStarted with
      | true => exact .of_terminal rfl
      | false => exact .of_pending rfl hstarted
  | @decided index decision read hd =>
      cases decision with
      | retryNow =>
          have hfresh : started r = false := by simpa [markGuard, hd, hr] using hok
          exact .of_pending rfl hfresh
      | resolve | archive => exact .of_terminal rfl
  | cancelled => exact .of_terminal rfl
  | @rewritten _ key payload hw hkey he =>
      rw [begun_of_notWritten h hw hl]
      exact ⟨hpending, hinflight⟩

/-- The mark of a row that appears. -/
theorem MarkOf.born {s t : State} {e : Event} (hsound : Sound s) (h : After s t e) {i : Nat}
    {r : OutboxItem} (hb : RowBorn s i e r (t.latest i)) : MarkOf (t.begun i) r := by
  generalize hl : t.latest i = l at hb
  cases hb with
  | submitted | batched => exact .of_pending rfl rfl
  | @leased a x hx hp hkey hi =>
      have hnone : t.begun i = false := hsound.logged.not_begun h rfl hl fun y hy => by
        rw [hx, Option.some.injEq] at hy
        rw [← hy, hp]
        rfl
      exact .of_inflight rfl (hnone ▸ rfl)

theorem MarkMeans.step {s t : State} {e : Event} (hs : MarkMeans s) (hsound : Sound s)
    (hok : markGuard s e = true) (h : After s t e) : MarkMeans t := by
  intro i r' hr'
  rcases h.row_from hr' with ⟨r, hr, hc⟩ | ⟨-, hborn⟩
  · exact hs.change hsound h hok hr hc
  · exact .born hsound h hborn

/-! ## what reads the mark -/

/-- A recovery pass makes a question of a row it takes from its holder if the
holder's send had begun, and puts it back on the queue otherwise. -/
def RecoversByMark (ok : State → Event → Bool) (s : State) : Prop :=
  ∀ e t i r r', e = .reclaimWrite ∨ e = .requeueWrite → ok s e = true → step s e = some t →
    s.outbox.get? i = some r → r.state = .inflight → t.outbox.get? i = some r' → r' ≠ r →
      r'.state = if s.begun i then .ambiguous else .pending

/-- `cancel_pending` and `replace_pending_payload` reach every pending row of their key. -/
def PendingTakesUpdates (s : State) : Prop :=
  ∀ i r key, s.outbox.get? i = some r → r.sourceKey = some key → r.state = .pending →
    ∀ reason payload stamp,
      (s.outbox.cancelPending key reason stamp).get? i = some (cancel reason stamp r) ∧
        (s.outbox.replacePendingPayload key payload stamp).get? i =
          some (rewrite payload stamp r)

theorem recover_state (wasStarted : Bool) (read now : Nat) (r : OutboxItem) :
    (recover wasStarted read now r).state = if wasStarted then .ambiguous else .pending := by
  cases wasStarted <;> rfl

theorem MarkMeans.recovers {s : State} (hs : MarkMeans s) (hsound : Sound s) :
    RecoversByMark markGuard s := by
  intro e t i r r' he hok hst hr hinflight hr' hne
  have hmark : started r = s.begun i := (hs i r hr).2 hinflight
  obtain ⟨r'', hr'', hc⟩ := (step_after hst).row_kept hr
  rw [hr', Option.some.injEq] at hr''
  subst hr''
  generalize t.latest i = l at hc
  cases hc with
  | same => exact absurd rfl hne
  | @reclaimed stamp wasStarted rest hsweep =>
      have hread : started r = wasStarted := by
        simpa [markGuard, hsweep, hr, hinflight] using hok
      rw [recover_state, ← hread, hmark]
  | @requeued wasStarted rest hm =>
      obtain ⟨-, hrows⟩ := (hsound.booting (by rw [hm]; simp)).2 _ hm
      obtain ⟨r₀, hr₀, -, hread⟩ := hrows i wasStarted List.mem_cons_self
      rw [hr, Option.some.injEq] at hr₀
      rw [recover_state, ← hread, ← hr₀, hmark]
  | rewritten _ _ he' =>
      rcases he' with ⟨rfl, -⟩ | ⟨rfl, -⟩ <;> rcases he with he | he <;> cases he
  | _ => rcases he with he | he <;> cases he

theorem MarkMeans.takesUpdates {s : State} (hs : MarkMeans s) : PendingTakesUpdates s := by
  intro i r key hr hkey hst reason payload stamp
  have hunsent : unsent r = true := by
    have hfresh : r.sendStartedAt.isSome = false := (hs i r hr).1 hst
    simpa [unsent, hst] using hfresh
  constructor
  · simp [cancelPending, Table.get?_update, hr, hkey, hunsent]
  · simp [replacePendingPayload, Table.get?_update, hr, hkey, hunsent]

/-! ## every run -/

/-- The mark means that the holder's send has begun, and its readers act on that. -/
def SendMarkExact (ok : State → Event → Bool) (s : State) : Prop :=
  MarkMeans s ∧ RecoversByMark ok s ∧ PendingTakesUpdates s

/-- The process dies in the middle of a send, and starts again. -/
def diedSending : List Event :=
  [.requeueSelect, .started, .submit someText .direction, .check 1, .claim 1, .enter 1,
   .sending 1, .crash, .requeueSelect]

/-- Telegram refuses a text for good, past its mark; then the owner has it tried again. -/
def retriedByHand : List Event :=
  [.requeueSelect, .started, .submit someText .direction, .check 1, .claim 1, .enter 1,
   .sending 1, .settle 1 (.raised (.telegram (.forbidden "bot was blocked"))) 0,
   .decide 1 .retryNow, .decideWrite 0]

end Telemax.Queue
