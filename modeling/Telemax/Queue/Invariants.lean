import Telemax.Queue.Steps

/-!
# Telemax.Queue.Invariants

What holds in every state of every run, whatever the leases and the sweeps do:

* `Claimed` — an attempt that has claimed a job has a row, of its bridge and
  direction;
* `Logged` — what the log says an attempt did, that attempt did;
* `UniqueKeys` — one row for each source key;
* `Booting` — while the process starts nothing else runs, and the rows
  `requeue_inflight` has selected are still as it read them.
-/

namespace Telemax.Queue

open Outbox

/-- The row is the job the caller describes. -/
def Fits (r : OutboxItem) (spec : JobSpec) : Prop :=
  r.bridgeName = spec.bridgeName ∧ r.direction = spec.direction ∧
    isCreating r.kind = isCreating spec.kind

theorem Fits.of_sameJob {r r' : OutboxItem} {spec : JobSpec} (h : Fits r spec)
    (hs : SameJob r r') : Fits r' spec := by
  obtain ⟨hb, hd, hk, -⟩ := hs
  obtain ⟨hb', hd', hk'⟩ := h
  exact ⟨hb.trans hb', hd.trans hd', by rw [hk, hk']⟩

/-- What `fits` checks of the row under the key. -/
theorem fits_of_bySourceKey {s : State} {spec : JobSpec} {i : Nat} {r : OutboxItem}
    (h : s.fits spec = true) (hkey : s.outbox.bySourceKey spec.sourceKey = some (i, r)) :
    Fits r spec := by
  simp only [State.fits, hkey, Bool.and_eq_true, beq_iff_eq] at h
  exact ⟨h.1.1, h.1.2, h.2⟩

theorem fits_newLeased (spec : JobSpec) (stamp : Nat) : Fits (newLeased spec stamp) spec :=
  ⟨rfl, rfl, rfl⟩

/-! ## rows stay -/

/-- A row is never lost, and stays the row of its job. -/
theorem After.row_kept {s t : State} {e : Event} (h : After s t e) {i : Nat} {r : OutboxItem}
    (hr : s.outbox.get? i = some r) :
    ∃ r', t.outbox.get? i = some r' ∧ RowChange s i r e r' (t.latest i) := by
  have hrow := h.row i
  unfold RowAfter at hrow
  rwa [hr] at hrow

/-- Where a row of the state after came from. -/
theorem After.row_from {s t : State} {e : Event} (h : After s t e) {i : Nat} {r' : OutboxItem}
    (hr : t.outbox.get? i = some r') :
    (∃ r, s.outbox.get? i = some r ∧ RowChange s i r e r' (t.latest i)) ∨
      s.outbox.get? i = none ∧ RowBorn s i e r' (t.latest i) := by
  have hrow := h.row i
  unfold RowAfter at hrow
  split at hrow
  · next r hs =>
      obtain ⟨r'', hr'', hc⟩ := hrow
      rw [hr, Option.some.injEq] at hr''
      exact .inl ⟨r, hs, hr'' ▸ hc⟩
  · next hs => exact .inr ⟨hs, hrow r' hr⟩

/-- Where an attempt of the state after came from. -/
theorem After.attempt_from {s t : State} {e : Event} (h : After s t e) {a : Nat} {y : Attempt}
    (hy : t.attempts.get? a = some y) :
    (∃ x, s.attempts.get? a = some x ∧ AttemptChange s t a x e y) ∨
      s.attempts.get? a = none ∧ AttemptBorn s t a e y := by
  have hattempt := h.attempt a
  unfold AttemptAfter at hattempt
  split at hattempt
  · next x hx =>
      obtain ⟨y', hy', hc⟩ := hattempt
      rw [hy, Option.some.injEq] at hy'
      exact .inl ⟨x, hx, hy' ▸ hc⟩
  · next hx => exact .inr ⟨hx, hattempt y hy⟩

/-- An attempt is never lost. -/
theorem After.attempt_kept {s t : State} {e : Event} (h : After s t e) {a : Nat} {x : Attempt}
    (hx : s.attempts.get? a = some x) :
    ∃ y, t.attempts.get? a = some y ∧ AttemptChange s t a x e y := by
  have hattempt := h.attempt a
  unfold AttemptAfter at hattempt
  rwa [hx] at hattempt

/-- The row `claim_for_attempt` hands out: the one under the key, or a new one. -/
theorem claimForAttempt_ours {o o' : Outbox} {spec : JobSpec} {stamp id : Nat}
    (h : o.claimForAttempt spec stamp = (o', id, true)) :
    (∃ r, o.bySourceKey spec.sourceKey = some (id, r) ∧ takeable r stamp = true ∧
        o' = o.modify id (lease stamp)) ∨
      o.bySourceKey spec.sourceKey = none ∧ id = o.next ∧
        o' = o.insert (newLeased spec stamp) := by
  unfold claimForAttempt at h
  split at h
  · next i r hkey =>
      split at h
      · next ht =>
          cases h
          exact .inl ⟨r, hkey, ht, rfl⟩
      · cases h
  · next hkey =>
      cases h
      exact .inr ⟨hkey, rfl, rfl⟩

/-! ## the id of the remote side, and the payload -/

theorem handleFailure_kept (attempts : Nat) (error : SendError) (v : Settlement)
    (backoff stamp : Nat) (r : OutboxItem) :
    (handleFailure attempts error v backoff stamp r).remoteMessageId = r.remoteMessageId ∧
      (handleFailure attempts error v backoff stamp r).payload = r.payload := by
  simp only [handleFailure]
  split
  · exact ⟨rfl, rfl⟩
  · exact ⟨rfl, rfl⟩

/-- A sender that raised leaves the id and the payload of its row alone. -/
theorem settleRow_raised_kept (x : Attempt) (error : SendError) (backoff stamp : Nat)
    (r : OutboxItem) :
    (x.settleRow (.raised error) backoff stamp r).remoteMessageId = r.remoteMessageId ∧
      (x.settleRow (.raised error) backoff stamp r).payload = r.payload := by
  cases hvia : x.via with
  | inline =>
      simp only [Attempt.settleRow, hvia, settleInline]
      cases (settle x.spec.kind error x.marked).verdict <;> exact ⟨rfl, rfl⟩
  | worker batch attempts =>
      simp only [Attempt.settleRow, hvia, settleWorker]
      cases (settle x.spec.kind error x.marked).verdict with
      | ambiguous | defer => exact ⟨rfl, rfl⟩
      | permanent | retry =>
          by_cases h : error = .cancelled
          · simp only [if_pos h]
            exact ⟨rfl, rfl⟩
          · simp only [if_neg h]
            exact handleFailure_kept ..

/-- Only an attempt that delivers writes the id the remote side gave. -/
theorem RowChange.remote {s : State} {i : Nat} {r r' : OutboxItem} {e : Event} {l : Option Nat}
    (h : RowChange s i r e r' l) :
    r'.remoteMessageId = r.remoteMessageId ∨
      ∃ a x remoteId backoff, e = .settle a (.delivered remoteId) backoff ∧
        s.attempts.get? a = some x ∧ x.phase = .inSender ∧ x.job = i ∧
        r'.remoteMessageId = remoteId := by
  cases h with
  | settled hx hp hj =>
      next a backoff x outcome ho =>
      cases outcome with
      | delivered remoteId => exact .inr ⟨a, x, remoteId, backoff, rfl, hx, hp, hj, rfl⟩
      | raised error => exact .inl (settleRow_raised_kept ..).1
  | reclaimed | requeued =>
      unfold recover
      split <;> exact .inl rfl
  | decided =>
      next index decision read hd => cases decision <;> exact .inl rfl
  | _ => exact .inl rfl

theorem RowBorn.remote {s : State} {i : Nat} {r' : OutboxItem} {e : Event} {l : Option Nat}
    (h : RowBorn s i e r' l) : r'.remoteMessageId = none := by
  cases h <;> rfl

/-! ## claimed jobs have rows -/

/-- Every attempt that has claimed a job has the row of that job. -/
def Claimed (s : State) : Prop :=
  ∀ a x, s.attempts.get? a = some x → x.phase.claiming = true →
    ∃ r, s.outbox.get? x.job = some r ∧ Fits r x.spec

theorem Claimed.step {s t : State} {e : Event} (hs : Claimed s) (h : After s t e) :
    Claimed t := by
  have hkept : ∀ a x, s.attempts.get? a = some x → x.phase.claiming = true →
      ∃ r, t.outbox.get? x.job = some r ∧ Fits r x.spec := by
    intro a x hx hp
    obtain ⟨r, hr, hfit⟩ := hs a x hx hp
    obtain ⟨r', hr', hc⟩ := h.row_kept hr
    exact ⟨r', hr', hfit.of_sameJob hc.sameJob⟩
  intro a y hy hp
  rcases h.attempt_from hy with ⟨x, hx, hc⟩ | ⟨-, hborn⟩
  · cases hc with
    | same => exact hkept a y hx hp
    | unblocked => cases hp
    | cleared hph | mustWait hph | entered hph | marked hph =>
        exact hkept a x hx (by rw [hph]; rfl)
    | settled => cases hp
    | ended hend => rcases hend with rfl | rfl <;> cases hp
    | claimed hph hfit hclaim ht _ =>
        rcases claimForAttempt_ours hclaim with ⟨r, hkey, -, -⟩ | ⟨-, rfl, rfl⟩
        · obtain ⟨r', hr', hc⟩ := h.row_kept (Table.first_some hkey).1
          exact ⟨r', hr', (fits_of_bySourceKey hfit hkey).of_sameJob hc.sameJob⟩
        · exact ⟨_, by rw [ht, Table.get?_insert, if_pos rfl], fits_newLeased ..⟩
  · cases hborn with
    | submitted | enqueued => cases hp
    | tookUp hdue _ _ =>
        obtain ⟨r', hr', hc⟩ := h.row_kept (due_pending hdue).1
        exact ⟨r', hr', Fits.of_sameJob ⟨rfl, rfl, rfl⟩ hc.sameJob⟩

/-! ## the log -/

def Mark.job : Mark → Nat
  | .entered j _ _ _ | .fired j _ _ _ | .retried j _ => j

def Mark.attempt : Mark → Nat
  | .entered _ a _ _ | .fired _ a _ _ | .retried _ a => a

/-- What the log says an attempt did, that attempt did: it got as far as the
sender, on that job, and the job has a row. -/
def Logged (s : State) : Prop :=
  ∀ m ∈ s.log, (∃ x, s.attempts.get? (Mark.attempt m) = some x ∧ x.job = Mark.job m ∧
    x.phase.mayHaveFired = true) ∧ ∃ r, s.outbox.get? (Mark.job m) = some r

/-- No event changes what an attempt is to send. -/
theorem AttemptChange.spec_eq {s t : State} {a : Nat} {x y : Attempt} {e : Event}
    (h : AttemptChange s t a x e y) : y.spec = x.spec := by
  cases h <;> rfl

/-- An attempt that got as far as the sender stays so, on its job. -/
theorem AttemptChange.mayHaveFired {s t : State} {a : Nat} {x y : Attempt} {e : Event}
    (h : AttemptChange s t a x e y) (hx : x.phase.mayHaveFired = true) :
    y.job = x.job ∧ y.phase.mayHaveFired = true := by
  cases h with
  | same => exact ⟨rfl, hx⟩
  | unblocked hp | cleared hp | mustWait hp | claimed hp | entered hp =>
      simp [hp, Phase.mayHaveFired] at hx
  | marked => exact ⟨rfl, hx⟩
  | settled => exact ⟨rfl, rfl⟩
  | ended hp => rcases hp with rfl | rfl <;> exact ⟨rfl, rfl⟩

/-- The marks of an event are those of an attempt that was cleared or in the
sender, on its job. -/
theorem mem_marksOf {s : State} {e : Event} {m : Mark} (h : m ∈ marksOf s e) :
    ∃ x, s.attempts.get? (Mark.attempt m) = some x ∧ x.job = Mark.job m ∧
      e.attempt? = some (Mark.attempt m) := by
  cases e with
  | enter a | sending a =>
      cases hx : s.attempts.get? a with
      | none => simp [marksOf, hx] at h
      | some x =>
          simp only [marksOf, hx, Option.elim_some, List.mem_singleton] at h
          subst h
          exact ⟨x, hx, rfl, rfl⟩
  | settle a outcome backoff =>
      cases hx : s.attempts.get? a with
      | none => simp [marksOf, hx] at h
      | some x =>
          simp only [marksOf, hx, Option.elim_some] at h
          split at h
          · simp only [List.mem_singleton] at h
            subst h
            exact ⟨x, hx, rfl, rfl⟩
          · cases h
  | _ => cases h

/-- The marks of one event are at most one. -/
theorem marksOf_length (s : State) (e : Event) : (marksOf s e).length ≤ 1 := by
  cases e with
  | enter a | sending a => cases h : s.attempts.get? a <;> simp [marksOf, h]
  | settle a outcome backoff =>
      cases h : s.attempts.get? a with
      | none => simp [marksOf, h]
      | some x =>
          simp only [marksOf, h, Option.elim_some]
          split <;> simp
  | _ => simp [marksOf]

theorem Logged.step {s t : State} {e : Event} (hs : Logged s) (hclaimed : Claimed s)
    (h : After s t e) : Logged t := by
  have hrow : ∀ j, (∃ r, s.outbox.get? j = some r) → ∃ r, t.outbox.get? j = some r := by
    rintro j ⟨r, hr⟩
    obtain ⟨r', hr', -⟩ := h.row_kept hr
    exact ⟨r', hr'⟩
  intro m hm
  rw [h.log, List.mem_append] at hm
  rcases hm with hnew | hold
  · obtain ⟨x, hx, hjob, ha⟩ := mem_marksOf hnew
    obtain ⟨y, hy, hc⟩ := h.attempt_kept hx
    have hclaim : x.phase.claiming = true → ∃ r, t.outbox.get? (Mark.job m) = some r := by
      intro hp
      obtain ⟨r, hr, -⟩ := hclaimed _ x hx hp
      exact hrow _ ⟨r, hjob ▸ hr⟩
    cases hc with
    | same hne => exact absurd ha hne
    | unblocked | cleared | mustWait | claimed => cases hnew
    | entered hp => exact ⟨⟨_, hy, hjob, rfl⟩, hclaim (by rw [hp]; rfl)⟩
    | marked hp => exact ⟨⟨_, hy, hjob, by rw [hp]; rfl⟩, hclaim (by rw [hp]; rfl)⟩
    | settled hp => exact ⟨⟨_, hy, hjob, rfl⟩, hclaim (by rw [hp]; rfl)⟩
    | ended _ hm => rw [hm] at hnew; cases hnew
  · obtain ⟨⟨x, hx, hjob, hp⟩, hr⟩ := hs m hold
    obtain ⟨y, hy, hc⟩ := h.attempt_kept hx
    obtain ⟨hjob', hp'⟩ := hc.mayHaveFired hp
    exact ⟨⟨y, hy, hjob'.trans hjob, hp'⟩, hrow _ hr⟩

/-! ## source keys -/

theorem step_uniqueKeys {s t : State} {e : Event} (hu : s.outbox.UniqueKeys)
    (h : step s e = some t) : t.outbox.UniqueKeys := by
  have hkept : (∀ i, s.outbox.get? i = none → t.outbox.get? i = none) →
      t.outbox.UniqueKeys := by
    intro hnone
    refine hu.of_kept fun i r' hr' => ?_
    rcases (step_after h).row_from hr' with ⟨r, hr, hc⟩ | ⟨hs, -⟩
    · exact ⟨r, hr, hc.sameJob.2.2.2⟩
    · rw [hnone i hs] at hr'
      cases hr'
  have hunborn : (∀ i r' l, ¬ RowBorn s i e r' l) → t.outbox.UniqueKeys := by
    intro hno
    refine hkept fun i hs => ?_
    cases hr' : t.outbox.get? i with
    | none => rfl
    | some r' =>
        rcases (step_after h).row_from hr' with ⟨r, hr, -⟩ | ⟨-, hb⟩
        · rw [hs] at hr
          cases hr
        · exact absurd hb (hno i r' _)
  cases e with
  | submit spec barrier =>
      obtain ⟨-, hup⟩ : s.mode = .up ∧ stepUp s (.submit spec barrier) = some t := by
        simpa [step, stepStart] using h
      simp only [stepUp, Option.ite_none_right_eq_some, Option.some.injEq] at hup
      obtain ⟨-, rfl⟩ := hup
      cases barrier with
      | none => exact hu
      | direction | kind => exact hu.enqueue spec s.now
  | enqueueBatch specs =>
      obtain ⟨-, hup⟩ : s.mode = .up ∧ stepUp s (.enqueueBatch specs) = some t := by
        simpa [step, stepStart] using h
      simp only [stepUp, Option.ite_none_right_eq_some, Option.some.injEq] at hup
      obtain ⟨-, rfl⟩ := hup
      exact hu.enqueueBatch s.now
  | claim a =>
      obtain ⟨-, hup⟩ : s.mode = .up ∧ stepUp s (.claim a) = some t := by
        simpa [step, stepStart] using h
      obtain ⟨x, -, -, hclaim⟩ := State.ofPhase_eq_some hup
      simp only [Option.ite_none_right_eq_some, Option.some.injEq] at hclaim
      obtain ⟨-, rfl⟩ := hclaim
      cases hc : s.outbox.claimForAttempt x.spec s.now with
      | mk outbox rest =>
          obtain ⟨id, ours⟩ := rest
          cases ours with
          | false => simpa [State.claim, hc] using hu
          | true =>
              rcases claimForAttempt_ours hc with ⟨r, hkey, -, rfl⟩ | ⟨hnone, rfl, rfl⟩
              · simp only [State.claim, hc]
                refine hu.of_kept fun i r' hr' => ?_
                rw [Table.get?_modify] at hr'
                split at hr'
                · next hi =>
                    rw [(bySourceKey_some hkey).1] at hr'
                    cases hr'
                    exact ⟨r, hi ▸ (bySourceKey_some hkey).1, rfl⟩
                · exact ⟨r', hr', rfl⟩
              · simp only [State.claim, hc]
                exact hu.insert hnone rfl
  | _ => exact hunborn fun i r' l hb => by cases hb

/-! ## starting -/

/-- While the process is not up no attempt runs, and every row that
`requeue_inflight` has selected is as it read it. -/
def Booting (s : State) : Prop :=
  s.mode ≠ .up → (∀ a x, s.attempts.get? a = some x → x.phase.running = false) ∧
    ∀ todo, s.mode = .requeueing todo → (todo.Pairwise fun p q => p.1 < q.1) ∧
      ∀ i wasStarted, (i, wasStarted) ∈ todo →
        ∃ r, s.outbox.get? i = some r ∧ r.state = .inflight ∧ started r = wasStarted

/-- A decision the owner has read: the row is as it was read, in a state that allows it. -/
def HasRead (s : State) (d : Nat × Decision × OutboxItem) : Prop :=
  s.outbox.get? d.1 = some d.2.2 ∧ d.2.1.allows d.2.2 = true

/-- What every event of the running process does to the rest of the state: it stays
up, and a pending decision is an old one or was read just now. -/
def Frame (s t : State) : Prop :=
  t.mode = s.mode ∧ ∀ d ∈ t.decisions, d ∈ s.decisions ∨ HasRead s d

theorem Frame.of_same {s t : State} (hm : t.mode = s.mode) (hd : t.decisions = s.decisions) :
    Frame s t :=
  ⟨hm, fun _ h => .inl (hd ▸ h)⟩

theorem check_frame {s t : State} {a : Nat} {x : Attempt} (h : s.check a x = some t) :
    Frame s t := by
  unfold State.check at h
  split at h
  · cases h
    exact .of_same rfl rfl
  · split at h <;> cases h
    exact .of_same rfl rfl
  · cases h

theorem stepUp_frame {s t : State} {e : Event} (h : stepUp s e = some t) : Frame s t := by
  cases e with
  | submit spec barrier =>
      simp only [stepUp, Option.ite_none_right_eq_some, Option.some.injEq] at h
      obtain ⟨-, rfl⟩ := h
      cases barrier <;> exact .of_same rfl rfl
  | check a =>
      obtain ⟨x, -, hcheck⟩ := Option.bind_eq_some_iff.mp h
      exact check_frame hcheck
  | claim a =>
      obtain ⟨x, -, -, hclaim⟩ := State.ofPhase_eq_some h
      simp only [Option.ite_none_right_eq_some, Option.some.injEq] at hclaim
      obtain ⟨-, rfl⟩ := hclaim
      unfold State.claim
      split <;> exact .of_same rfl rfl
  | drain bridge limit =>
      simp only [stepUp, Option.ite_none_left_eq_some, Option.some.injEq] at h
      obtain ⟨-, rfl⟩ := h
      exact .of_same (by simp [State.drain]) (by simp [State.drain])
  | wait a | enter a | sending a | sendingLost a =>
      obtain ⟨x, -, -, ht⟩ := State.ofPhase_eq_some h
      obtain rfl := Option.some.inj ht
      exact .of_same rfl rfl
  | settle a outcome backoff =>
      obtain ⟨x, -, -, hsettle⟩ := State.ofPhase_eq_some h
      simp only [Option.ite_none_right_eq_some, Option.some.injEq] at hsettle
      obtain ⟨-, rfl⟩ := hsettle
      unfold State.settle
      split <;> exact .of_same rfl rfl
  | die a =>
      obtain ⟨x, -, rfl⟩ := Option.map_eq_some_iff.mp h
      exact .of_same rfl rfl
  | enqueueBatch specs | reclaimSelect | reclaimWrite | expireSelect | expireWrite =>
      simp only [stepUp] at h
      split at h <;> cases h
      exact .of_same rfl rfl
  | decide job decision =>
      simp only [stepUp] at h
      split at h
      · next r hr =>
          split at h
          · next hallows =>
              cases h
              refine ⟨rfl, fun d hd => ?_⟩
              rcases List.mem_append.mp hd with hold | hnew
              · exact .inl hold
              · rw [List.mem_singleton] at hnew
                exact .inr (hnew ▸ ⟨hr, hallows⟩)
          · cases h
      · cases h
  | decideWrite index =>
      simp only [stepUp] at h
      split at h <;> cases h
      exact ⟨rfl, fun d hd => .inl (List.mem_of_mem_eraseIdx hd)⟩
  | sweepStop | cancelPending key reason | replacePendingPayload key payload
  | replaceFailedPayload key payload =>
      cases h
      exact .of_same rfl rfl
  | clock now | crash | requeueSelect | requeueWrite | started => cases h

/-- The decisions pending after any event: old ones, or one read just now. -/
theorem step_decisions {s t : State} {e : Event} (h : step s e = some t)
    (d : Nat × Decision × OutboxItem) (hd : d ∈ t.decisions) : d ∈ s.decisions ∨ HasRead s d := by
  rcases step_cases h with ⟨now, rfl, rfl⟩ | ⟨rfl, rfl⟩ | ⟨-, hup⟩ | ⟨-, hstart⟩
  · exact .inl hd
  · cases hd
  · exact (stepUp_frame hup).2 d hd
  · refine .inl ?_
    cases e with
    | requeueSelect | requeueWrite | started =>
        simp only [stepStart] at hstart
        split at hstart <;> cases hstart
        exact hd
    | _ => cases hstart

theorem Booting.stepStart {s t : State} {e : Event} (hs : Booting s) (hmode : s.mode ≠ .up)
    (h : stepStart s e = some t) : Booting t := by
  intro hdown
  obtain ⟨hidle, htodo⟩ := hs hmode
  cases e with
  | requeueSelect =>
      simp only [Queue.stepStart] at h
      split at h <;> cases h
      refine ⟨hidle, ?_⟩
      rintro todo ⟨⟩
      refine ⟨List.pairwise_map.mpr (Table.select_sorted _ _), fun i w hi => ?_⟩
      obtain ⟨⟨j, r⟩, hj, hjw⟩ := List.mem_map.mp hi
      obtain ⟨rfl, rfl⟩ := Prod.mk.inj hjw
      obtain ⟨hr, hst⟩ := Table.mem_select.mp hj
      exact ⟨r, hr, by simpa using hst, rfl⟩
  | requeueWrite =>
      simp only [Queue.stepStart] at h
      split at h
      · next i w rest hm =>
          cases h
          refine ⟨hidle, ?_⟩
          rintro todo ⟨⟩
          obtain ⟨hsorted, hrows⟩ := htodo _ hm
          obtain ⟨hi, hrest⟩ := List.pairwise_cons.mp hsorted
          refine ⟨hrest, fun j w' hj => ?_⟩
          obtain ⟨r, hr, hst⟩ := hrows j w' (List.mem_cons_of_mem _ hj)
          refine ⟨r, ?_, hst⟩
          simp only [State.writeRow_outbox]
          rw [Table.get?_modify_ne _ _ (hi _ hj).ne', hr]
      · cases h
  | started =>
      simp only [Queue.stepStart] at h
      split at h <;> cases h
      exact absurd rfl hdown
  | _ => cases h

theorem Booting.step {s t : State} {e : Event} (hs : Booting s) (h : step s e = some t) :
    Booting t := by
  rcases step_cases h with ⟨now, rfl, rfl⟩ | ⟨rfl, rfl⟩ | ⟨hup, hstep⟩ | ⟨hmode, hstart⟩
  · exact hs
  · refine fun _ => ⟨fun a x hx => ?_, fun todo htodo => by cases htodo⟩
    simp only [State.crash, Table.get?_update, Option.map_eq_some_iff] at hx
    obtain ⟨y, -, rfl⟩ := hx
    split
    · rfl
    · next hy => simpa using hy
  · exact fun hdown => absurd ((stepUp_frame hstep).1.trans hup) hdown
  · exact hs.stepStart hmode hstart

/-! ## every run -/

/-- The facts that hold in every state of every run. -/
structure Sound (s : State) : Prop where
  claimed : Claimed s
  logged : Logged s
  keys : s.outbox.UniqueKeys
  booting : Booting s

theorem Sound.start : Sound system.start where
  claimed := fun a x hx => by simp [system] at hx
  logged := fun m hm => by simp [system] at hm
  keys := fun i j r r' key hr => by simp [system] at hr
  booting := fun _ => ⟨fun a x hx => by simp [system] at hx, fun todo h => by cases h⟩

theorem Sound.step {s t : State} {e : Event} (hs : Sound s) (h : step s e = some t) :
    Sound t where
  claimed := hs.claimed.step (step_after h)
  logged := hs.logged.step hs.claimed (step_after h)
  keys := step_uniqueKeys hs.keys h
  booting := hs.booting.step h

theorem sound_of_reaches {ok : State → Event → Prop} {s : State}
    (h : Run.Reaches system ok s) : Sound s :=
  h.invariant .start fun _ _ _ hs _ hst => hs.step hst

/-! ## a condition on runs -/

/-- The owner retries nothing by hand. -/
def noRetryNow (s : State) : Event → Bool
  | .decideWrite index => (s.decisions[index]?).all fun d => d.2.1 != .retryNow
  | _ => true

end Telemax.Queue
