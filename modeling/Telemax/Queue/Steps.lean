import Telemax.Queue.System

/-!
# Telemax.Queue.Steps

What one event can do, said once.  `RowChange` lists every way a row of the
outbox changes, with the guard the code had passed and the claim the row is under
afterwards; `RowBorn` every way a row appears.  `AttemptChange` and `AttemptBorn`
do the same for the attempts.  The invariants of the system are case analyses of
these four relations and never look at the step function again.
-/

namespace Telemax.Queue

open Outbox

namespace State

@[simp] theorem setAttempt_outbox (s : State) (a : Nat) (f : Attempt → Attempt) :
    (s.setAttempt a f).outbox = s.outbox := rfl
@[simp] theorem setAttempt_latest (s : State) (a : Nat) (f : Attempt → Attempt) :
    (s.setAttempt a f).latest = s.latest := rfl
@[simp] theorem setAttempt_attempts (s : State) (a : Nat) (f : Attempt → Attempt) :
    (s.setAttempt a f).attempts = s.attempts.modify a f := rfl
@[simp] theorem setAttempt_log (s : State) (a : Nat) (f : Attempt → Attempt) :
    (s.setAttempt a f).log = s.log := rfl
@[simp] theorem setAttempt_mode (s : State) (a : Nat) (f : Attempt → Attempt) :
    (s.setAttempt a f).mode = s.mode := rfl
@[simp] theorem setPhase_eq (s : State) (a : Nat) (p : Phase) :
    s.setPhase a p = s.setAttempt a fun x => { x with phase := p } := rfl
@[simp] theorem writeRow_outbox (s : State) (i : Nat) (f : OutboxItem → OutboxItem) :
    (s.writeRow i f).outbox = s.outbox.modify i f := rfl
@[simp] theorem writeRow_latest (s : State) (i : Nat) (f : OutboxItem → OutboxItem) :
    (s.writeRow i f).latest = s.latest := rfl
@[simp] theorem writeRow_attempts (s : State) (i : Nat) (f : OutboxItem → OutboxItem) :
    (s.writeRow i f).attempts = s.attempts := rfl
@[simp] theorem writeRow_log (s : State) (i : Nat) (f : OutboxItem → OutboxItem) :
    (s.writeRow i f).log = s.log := rfl
@[simp] theorem writeRow_mode (s : State) (i : Nat) (f : OutboxItem → OutboxItem) :
    (s.writeRow i f).mode = s.mode := rfl
@[simp] theorem note_outbox (s : State) (m : Mark) : (s.note m).outbox = s.outbox := rfl
@[simp] theorem note_latest (s : State) (m : Mark) : (s.note m).latest = s.latest := rfl
@[simp] theorem note_attempts (s : State) (m : Mark) : (s.note m).attempts = s.attempts := rfl
@[simp] theorem note_log (s : State) (m : Mark) : (s.note m).log = m :: s.log := rfl
@[simp] theorem note_mode (s : State) (m : Mark) : (s.note m).mode = s.mode := rfl

/-- A step of an attempt in a phase is a step of an attempt that is in it. -/
theorem ofPhase_eq_some {s t : State} {a : Nat} {p : Phase} {f : Attempt → Option State}
    (h : s.ofPhase a p f = some t) :
    ∃ x, s.attempts.get? a = some x ∧ x.phase = p ∧ f x = some t := by
  unfold ofPhase at h
  split at h
  · next x hx =>
      split at h
      · next hp => exact ⟨x, hx, hp, h⟩
      · cases h
  · cases h

/-! ## the batch a worker takes in hand -/

variable {batch : Nat}

@[simp] theorem foldl_takeUp_outbox (rows : List (Nat × OutboxItem)) (s : State) :
    (rows.foldl (takeUp batch) s).outbox = s.outbox := by
  induction rows generalizing s with
  | nil => rfl
  | cons row rows ih => exact ih _

@[simp] theorem foldl_takeUp_log (rows : List (Nat × OutboxItem)) (s : State) :
    (rows.foldl (takeUp batch) s).log = s.log := by
  induction rows generalizing s with
  | nil => rfl
  | cons row rows ih => exact ih _

@[simp] theorem foldl_takeUp_mode (rows : List (Nat × OutboxItem)) (s : State) :
    (rows.foldl (takeUp batch) s).mode = s.mode := by
  induction rows generalizing s with
  | nil => rfl
  | cons row rows ih => exact ih _

@[simp] theorem foldl_takeUp_decisions (rows : List (Nat × OutboxItem)) (s : State) :
    (rows.foldl (takeUp batch) s).decisions = s.decisions := by
  induction rows generalizing s with
  | nil => rfl
  | cons row rows ih => exact ih _

/-- Rows that are not in the batch keep their last claim. -/
theorem foldl_takeUp_latest_of_not_mem {rows : List (Nat × OutboxItem)} {s : State} {i : Nat}
    (h : ∀ row ∈ rows, row.1 ≠ i) : (rows.foldl (takeUp batch) s).latest i = s.latest i := by
  induction rows generalizing s with
  | nil => rfl
  | cons row rows ih =>
      rw [List.foldl_cons, ih fun x hx => h x (List.mem_cons_of_mem _ hx)]
      exact Function.update_of_ne (h row List.mem_cons_self).symm _ _

/-- An attempt after the batch was taken: an old one, or the one that took a row
of the batch and made its last claim. -/
theorem foldl_takeUp_attempts {rows : List (Nat × OutboxItem)} {s : State} {a : Nat}
    {x : Attempt} (hrows : rows.Pairwise fun p q => p.1 < q.1)
    (h : (rows.foldl (takeUp batch) s).attempts.get? a = some x) :
    s.attempts.get? a = some x ∨
      s.attempts.get? a = none ∧ ∃ row ∈ rows, x = .ofRow batch row ∧
        (rows.foldl (takeUp batch) s).latest row.1 = some a := by
  induction rows generalizing s with
  | nil => exact .inl h
  | cons row rows ih =>
      obtain ⟨hrow, hrest⟩ := List.pairwise_cons.mp hrows
      rw [List.foldl_cons] at h ⊢
      have hkeep : (rows.foldl (takeUp batch) (s.takeUp batch row)).latest row.1 =
          some s.attempts.next := by
        rw [foldl_takeUp_latest_of_not_mem fun y hy => (hrow y hy).ne']
        exact Function.update_self ..
      rcases ih hrest h with hold | ⟨hnone, y, hy, rfl, hl⟩
      · simp only [takeUp, Table.get?_insert] at hold
        split at hold
        · next ha =>
            cases hold
            exact .inr ⟨by rw [ha, Table.get?_next], row, List.mem_cons_self, rfl,
              by rw [ha]; exact hkeep⟩
        · exact .inl hold
      · simp only [takeUp, Table.get?_insert] at hnone
        split at hnone
        · cases hnone
        · exact .inr ⟨hnone, y, List.mem_cons_of_mem _ hy, rfl, hl⟩

/-- A row of the batch is under the claim of an attempt that was not there. -/
theorem foldl_takeUp_latest_of_mem {rows : List (Nat × OutboxItem)} {s : State} {i : Nat}
    {r : OutboxItem} (hrows : rows.Pairwise fun p q => p.1 < q.1) (h : (i, r) ∈ rows) :
    ∃ b, (rows.foldl (takeUp batch) s).latest i = some b ∧ s.attempts.get? b = none := by
  induction rows generalizing s with
  | nil => cases h
  | cons row rows ih =>
      obtain ⟨hrow, hrest⟩ := List.pairwise_cons.mp hrows
      rw [List.foldl_cons]
      rcases List.mem_cons.mp h with rfl | hmem
      · refine ⟨s.attempts.next, ?_, Table.get?_next _⟩
        rw [foldl_takeUp_latest_of_not_mem fun y hy => (hrow y hy).ne']
        exact Function.update_self ..
      · obtain ⟨b, hb, hnone⟩ := ih (s := s.takeUp batch row) hrest hmem
        refine ⟨b, hb, ?_⟩
        simp only [takeUp, Table.get?_insert] at hnone
        split at hnone
        · cases hnone
        · exact hnone

/-- The old attempts are still there. -/
theorem foldl_takeUp_attempts_mono {rows : List (Nat × OutboxItem)} {s : State} {a : Nat}
    {x : Attempt} (h : s.attempts.get? a = some x) :
    (rows.foldl (takeUp batch) s).attempts.get? a = some x := by
  induction rows generalizing s with
  | nil => exact h
  | cons row rows ih =>
      rw [List.foldl_cons]
      refine ih ?_
      rw [takeUp, Table.get?_insert, if_neg (Table.lt_next h).ne, h]

end State

/-! ## rows -/

/-- The attempt that writes the row of its job with this event. -/
def Event.writer? : Event → Option Nat
  | .wait a | .sending a | .settle a _ _ => some a
  | _ => none

/-- The event writes the row of job `i`, if it writes one for its attempt. -/
def WritesOnly (s : State) (e : Event) (i : Nat) : Prop :=
  ∀ a x, e.writer? = some a → s.attempts.get? a = some x → x.job = i

/-- The event does not write row `i` for an attempt. -/
def NotWritten (s : State) (e : Event) (i : Nat) : Prop :=
  ∀ a x, e.writer? = some a → s.attempts.get? a = some x → x.job ≠ i

theorem notWritten_of_none {s : State} {e : Event} {i : Nat} (h : e.writer? = none) :
    NotWritten s e i := fun a x ha => by simp [h] at ha

theorem writesOnly_of_none {s : State} {e : Event} {i : Nat} (h : e.writer? = none) :
    WritesOnly s e i := fun a x ha => by simp [h] at ha

theorem writesOnly_own {s : State} {e : Event} {a : Nat} {x : Attempt}
    (hx : s.attempts.get? a = some x) (ha : e.writer? = some a) : WritesOnly s e x.job := by
  intro b y hb hy
  rw [ha, Option.some.injEq] at hb
  subst hb
  rw [hx, Option.some.injEq] at hy
  rw [hy]

/-- What one event can make of row `i`, and of the last claim it is under. -/
inductive RowChange (s : State) (i : Nat) (r : OutboxItem) :
    Event → OutboxItem → Option Nat → Prop
  | same {e : Event} (hw : NotWritten s e i) : RowChange s i r e r (s.latest i)
  | claimed {a : Nat} {x : Attempt} (hx : s.attempts.get? a = some x)
      (hp : x.phase = .unblocked) (hkey : s.outbox.bySourceKey x.spec.sourceKey = some (i, r))
      (ht : takeable r s.now = true) :
      RowChange s i r (.claim a) (lease s.now r) (some a)
  | drained {bridge : String} {limit b : Nat} (hdue : (i, r) ∈ s.outbox.due bridge limit s.now)
      (hb : s.attempts.get? b = none) :
      RowChange s i r (.drain bridge limit) (lease s.now r) (some b)
  | waited {a : Nat} {x : Attempt} (hx : s.attempts.get? a = some x)
      (hp : x.phase = .waiting) (hj : x.job = i) :
      RowChange s i r (.wait a) (defer orderWaitMs s.now r) (s.latest i)
  | fired {a : Nat} {x : Attempt} (hx : s.attempts.get? a = some x)
      (hp : x.phase = .inSender) (hj : x.job = i) :
      RowChange s i r (.sending a) (markSending s.now r) (s.latest i)
  | settled {a backoff : Nat} {x : Attempt} {outcome : Outcome}
      (hx : s.attempts.get? a = some x) (hp : x.phase = .inSender) (hj : x.job = i)
      (ho : outcome.possible x.spec.kind = true) :
      RowChange s i r (.settle a outcome backoff) (x.settleRow outcome backoff s.now r)
        (s.latest i)
  | reclaimed {stamp : Nat} {wasStarted : Bool} {rest : List (Nat × Bool)}
      (hs : s.sweeper = .reclaiming stamp ((i, wasStarted) :: rest)) :
      RowChange s i r .reclaimWrite (recover wasStarted stamp s.now r) (s.latest i)
  | expired {rest : List Nat} (hs : s.sweeper = .expiring (i :: rest)) :
      RowChange s i r .expireWrite (markExpired s.now r) (s.latest i)
  | requeued {wasStarted : Bool} {rest : List (Nat × Bool)}
      (hm : s.mode = .requeueing ((i, wasStarted) :: rest)) :
      RowChange s i r .requeueWrite (recover wasStarted s.now s.now r) (s.latest i)
  | decided {index : Nat} {decision : Decision} {read : OutboxItem}
      (hd : s.decisions[index]? = some (i, decision, read)) :
      RowChange s i r (.decideWrite index) (decision.write read s.now r) (s.latest i)
  | cancelled {key reason : String} (hu : unsent r = true) (hkey : r.sourceKey = some key) :
      RowChange s i r (.cancelPending key reason) (cancel reason s.now r) (s.latest i)
  | rewritten {e : Event} {key : String} {payload : Payload} (hw : NotWritten s e i)
      (hkey : r.sourceKey = some key)
      (he : (e = .replacePendingPayload key payload ∧ unsent r = true) ∨
        (e = .replaceFailedPayload key payload ∧ r.state = .failed)) :
      RowChange s i r e (rewrite payload s.now r) (s.latest i)

/-- No event changes what identifies a job. -/
theorem RowChange.sameJob {s : State} {i : Nat} {r r' : OutboxItem} {e : Event}
    {l : Option Nat} (h : RowChange s i r e r' l) : SameJob r r' := by
  cases h with
  | settled => exact Attempt.settleRow_sameJob ..
  | reclaimed | requeued =>
      unfold recover
      split <;> exact ⟨rfl, rfl, rfl, rfl⟩
  | decided hd =>
      next index decision read => cases decision <;> exact ⟨rfl, rfl, rfl, rfl⟩
  | _ => exact ⟨rfl, rfl, rfl, rfl⟩

/-- How a row that was not there can appear, and under which claim. -/
inductive RowBorn (s : State) (i : Nat) : Event → OutboxItem → Option Nat → Prop
  | submitted {spec : JobSpec} {barrier : Barrier} (hi : s.outbox.next ≤ i) :
      RowBorn s i (.submit spec barrier) (newPending spec s.now) (s.latest i)
  | batched {specs : List JobSpec} {spec : JobSpec} (hmem : spec ∈ specs)
      (hi : s.outbox.next ≤ i) :
      RowBorn s i (.enqueueBatch specs) (newPending spec s.now) (s.latest i)
  | leased {a : Nat} {x : Attempt} (hx : s.attempts.get? a = some x)
      (hp : x.phase = .unblocked) (hkey : s.outbox.bySourceKey x.spec.sourceKey = none)
      (hi : i = s.outbox.next) :
      RowBorn s i (.claim a) (newLeased x.spec s.now) (some a)

/-- A row after an event: changed from what it was, or born. -/
def RowAfter (s t : State) (e : Event) (i : Nat) : Prop :=
  match s.outbox.get? i with
  | some r => ∃ r', t.outbox.get? i = some r' ∧ RowChange s i r e r' (t.latest i)
  | none => ∀ r', t.outbox.get? i = some r' → RowBorn s i e r' (t.latest i)

namespace RowAfter

variable {s t : State} {e : Event} {i : Nat}

/-- An event that leaves the outbox and the claims alone. -/
theorem of_same (ho : t.outbox = s.outbox) (hl : t.latest = s.latest)
    (hw : e.writer? = none) : RowAfter s t e i := by
  unfold RowAfter
  rw [ho, hl]
  split
  · next r hr => exact ⟨r, hr, .same (notWritten_of_none hw)⟩
  · next hr =>
      intro r' h
      simp [hr] at h

/-- An event that writes one row. -/
theorem of_modify {j : Nat} {f : OutboxItem → OutboxItem} (ho : t.outbox = s.outbox.modify j f)
    (hl : t.latest = s.latest) (hw : WritesOnly s e j)
    (hc : ∀ r, i = j → RowChange s i r e (f r) (s.latest i)) : RowAfter s t e i := by
  unfold RowAfter
  rw [ho, hl]
  split
  · next r hr =>
      by_cases hij : i = j
      · exact ⟨f r, by rw [hij, Table.get?_modify_self, ← hij, hr]; rfl, hc r hij⟩
      · exact ⟨r, by rw [Table.get?_modify_ne _ _ hij, hr],
          .same fun a x ha hx => (hw a x ha hx).trans_ne (Ne.symm hij)⟩
  · next hr =>
      intro r' h
      rw [Table.get?_modify, hr] at h
      split at h <;> simp_all

/-- An event that rewrites the rows of a condition. -/
theorem of_update (p : Nat → OutboxItem → Bool) (f : OutboxItem → OutboxItem)
    (ho : t.outbox = s.outbox.update p f) (hl : t.latest = s.latest) (hw : e.writer? = none)
    (hc : ∀ r, p i r = true → RowChange s i r e (f r) (s.latest i)) : RowAfter s t e i := by
  unfold RowAfter
  rw [ho, hl]
  split
  · next r hr =>
      by_cases hp : p i r = true
      · exact ⟨f r, by rw [Table.get?_update, hr]; simp [hp], hc r hp⟩
      · exact ⟨r, by rw [Table.get?_update, hr]; simp [hp], .same (notWritten_of_none hw)⟩
  · next hr =>
      intro r' h
      simp [Table.get?_update, hr] at h

/-- An event that only adds pending rows. -/
theorem of_pending (hl : t.latest = s.latest) (hw : e.writer? = none)
    (hkeep : ∀ r, s.outbox.get? i = some r → t.outbox.get? i = some r)
    (hnew : ∀ r', s.outbox.get? i = none → t.outbox.get? i = some r' →
      RowBorn s i e r' (s.latest i)) : RowAfter s t e i := by
  unfold RowAfter
  rw [hl]
  split
  · next r hr => exact ⟨r, hkeep r hr, .same (notWritten_of_none hw)⟩
  · next hr => exact fun r' h => hnew r' hr h

end RowAfter

/-- A claim by `claim_for_attempt` takes the row of its key, or makes it. -/
theorem rowAfter_claim {s : State} {a : Nat} {x : Attempt} (hx : s.attempts.get? a = some x)
    (hp : x.phase = .unblocked) (i : Nat) : RowAfter s (s.claim a x) (.claim a) i := by
  cases hkey : s.outbox.bySourceKey x.spec.sourceKey with
  | some found =>
      obtain ⟨id, row⟩ := found
      have hrow : s.outbox.get? id = some row := (Table.first_some hkey).1
      by_cases ht : takeable row s.now = true
      · have hclaim : s.outbox.claimForAttempt x.spec s.now =
            (s.outbox.modify id (lease s.now), id, true) := by
          simp [claimForAttempt, hkey, ht]
        unfold RowAfter
        simp only [State.claim, hclaim]
        by_cases hi : i = id
        · subst hi
          rw [hrow, Table.get?_modify_self, hrow, Function.update_self]
          exact ⟨lease s.now row, rfl, .claimed hx hp hkey ht⟩
        · rw [Table.get?_modify_ne _ _ hi, Function.update_of_ne hi]
          split
          · next r hr => exact ⟨r, hr, .same (notWritten_of_none rfl)⟩
          · next hr => intro r' h; simp [hr] at h
      · have hclaim : s.outbox.claimForAttempt x.spec s.now = (s.outbox, id, false) := by
          simp [claimForAttempt, hkey, ht]
        exact .of_same (by simp [State.claim, hclaim]) (by simp [State.claim, hclaim]) rfl
  | none =>
      have hclaim : s.outbox.claimForAttempt x.spec s.now =
          (s.outbox.insert (newLeased x.spec s.now), s.outbox.next, true) := by
        simp [claimForAttempt, hkey]
      unfold RowAfter
      simp only [State.claim, hclaim, Table.get?_insert]
      by_cases hi : i = s.outbox.next
      · subst hi
        rw [Table.get?_next, if_pos rfl, Function.update_self]
        rintro r' ⟨⟩
        exact .leased hx hp hkey rfl
      · rw [if_neg hi, Function.update_of_ne hi]
        split
        · next r hr => exact ⟨r, hr, .same (notWritten_of_none rfl)⟩
        · next hr => intro r' h; simp [hr] at h

/-- What a worker takes in hand is in key order. -/
theorem due_sorted (o : Outbox) (bridge : String) (limit stamp : Nat) :
    (o.due bridge limit stamp).Pairwise fun p q => p.1 < q.1 :=
  ((Table.select_sorted _ _).sublist (List.take_sublist _ _)).sublist
    (List.takeWhile_sublist _)

/-- What a worker takes in hand was pending. -/
theorem due_pending {o : Outbox} {bridge : String} {limit stamp i : Nat} {r : OutboxItem}
    (h : (i, r) ∈ o.due bridge limit stamp) :
    o.get? i = some r ∧ r.bridgeName = bridge ∧ r.state = .pending := by
  have hsel := List.mem_of_mem_take ((List.takeWhile_sublist _).subset h)
  simpa [Table.mem_select] using hsel

/-- A due row is under the claim of a new attempt afterwards. -/
theorem drain_latest_of_mem {s : State} {bridge : String} {limit i : Nat} {r : OutboxItem}
    (h : (i, r) ∈ s.outbox.due bridge limit s.now) :
    ∃ b, (s.drain bridge limit).latest i = some b ∧ s.attempts.get? b = none :=
  State.foldl_takeUp_latest_of_mem (List.pairwise_map.mpr (due_sorted ..))
    (List.mem_map_of_mem h)

/-- Every other row keeps its last claim. -/
theorem drain_latest_of_not_mem {s : State} {bridge : String} {limit i : Nat}
    (h : ∀ r, (i, r) ∉ s.outbox.due bridge limit s.now) :
    (s.drain bridge limit).latest i = s.latest i := by
  refine State.foldl_takeUp_latest_of_not_mem fun x hx => ?_
  obtain ⟨row, hrow, rfl⟩ := List.mem_map.mp hx
  rintro rfl
  exact h row.2 hrow

/-- `claim_due` leases the due rows and leaves the others. -/
theorem drain_outbox (s : State) (bridge : String) (limit i : Nat) :
    (s.drain bridge limit).outbox.get? i =
      (s.outbox.get? i).map fun r =>
        if (i, r) ∈ s.outbox.due bridge limit s.now then lease s.now r else r := by
  simp only [State.drain, claimDue, State.foldl_takeUp_outbox, Table.get?_update]
  cases hr : s.outbox.get? i with
  | none => rfl
  | some r =>
      have hiff : ((s.outbox.due bridge limit s.now).map (·.1)).contains i = true ↔
          (i, r) ∈ s.outbox.due bridge limit s.now := by
        simp only [List.contains_iff_mem, List.mem_map, Prod.exists, exists_and_right,
          exists_eq_right]
        constructor
        · rintro ⟨r', h⟩
          rw [(due_pending h).1, Option.some.injEq] at hr
          exact hr ▸ h
        · exact fun h => ⟨r, h⟩
      simp only [Option.map_some, hiff]

/-- A claim by `claim_due` takes the due rows. -/
theorem rowAfter_drain (s : State) (bridge : String) (limit i : Nat) :
    RowAfter s (s.drain bridge limit) (.drain bridge limit) i := by
  unfold RowAfter
  rw [drain_outbox]
  split
  · next r hr =>
      by_cases hdue : (i, r) ∈ s.outbox.due bridge limit s.now
      · obtain ⟨b, hb, hnone⟩ := drain_latest_of_mem hdue
        rw [hb, hr]
        exact ⟨lease s.now r, by simp [hdue], .drained hdue hnone⟩
      · have hnot : ∀ r', (i, r') ∉ s.outbox.due bridge limit s.now := by
          intro r' h
          have heq := (due_pending h).1
          rw [hr, Option.some.injEq] at heq
          exact hdue (heq ▸ h)
        rw [drain_latest_of_not_mem hnot, hr]
        exact ⟨r, by simp [hdue], .same (notWritten_of_none rfl)⟩
  · next hr =>
      intro r' h
      simp [hr] at h

/-! ## the log -/

/-- What an event adds to the log. -/
def marksOf (s : State) : Event → List Mark
  | .enter a =>
      (s.attempts.get? a).elim [] fun x =>
        [.entered x.job a x.spec.bridgeName x.spec.direction]
  | .sending a =>
      (s.attempts.get? a).elim [] fun x => [.fired x.job a x.spec.bridgeName x.spec.direction]
  | .settle a outcome _ =>
      (s.attempts.get? a).elim [] fun x =>
        if x.settledRetry outcome then [.retried x.job a] else []
  | _ => []

/-! ## attempts -/

/-- The attempt whose task makes this event. -/
def Event.attempt? : Event → Option Nat
  | .check a | .claim a | .wait a | .enter a | .sending a | .sendingLost a
  | .settle a _ _ | .die a => some a
  | _ => none

/-- What one event can make of attempt `a`. -/
inductive AttemptChange (s t : State) (a : Nat) (x : Attempt) : Event → Attempt → Prop
  | same {e : Event} (ha : e.attempt? ≠ some a) (hc : e = .crash → x.phase.running = false) :
      AttemptChange s t a x e x
  | unblocked {barrier : Barrier} (hp : x.phase = .enqueued barrier)
      (hb : s.blocked x barrier = false) :
      AttemptChange s t a x (.check a) { x with phase := .unblocked }
  | cleared (hp : x.phase = .inHand) (hb : s.blocked x .direction = false) :
      AttemptChange s t a x (.check a) { x with phase := .cleared }
  | mustWait (hp : x.phase = .inHand) :
      AttemptChange s t a x (.check a) { x with phase := .waiting }
  | claimed {outbox : Outbox} {id : Nat} (hp : x.phase = .unblocked)
      (hfit : s.fits x.spec = true)
      (hc : s.outbox.claimForAttempt x.spec s.now = (outbox, id, true))
      (ht : t.outbox = outbox) (hl : t.latest id = some a) :
      AttemptChange s t a x (.claim a) { x with job := id, phase := .cleared }
  | entered (hp : x.phase = .cleared) :
      AttemptChange s t a x (.enter a) { x with phase := .inSender }
  | marked {e : Event} (hp : x.phase = .inSender) (he : e = .sending a ∨ e = .sendingLost a) :
      AttemptChange s t a x e { x with marked := true }
  | settled {outcome : Outcome} {backoff : Nat} (hp : x.phase = .inSender) :
      AttemptChange s t a x (.settle a outcome backoff) { x with phase := .over }
  | ended {e : Event} {p : Phase} (hp : p = .over ∨ p = .dead) (hm : marksOf s e = [])
      (hkey : p = .over → x.phase = .unblocked →
        ∃ row, s.outbox.bySourceKey x.spec.sourceKey = some row) :
      AttemptChange s t a x e { x with phase := p }

/-- How an attempt that was not there can appear. -/
inductive AttemptBorn (s t : State) (a : Nat) : Event → Attempt → Prop
  | submitted {spec : JobSpec} :
      AttemptBorn s t a (.submit spec .none)
        { spec, job := 0, via := .inline, phase := .unblocked }
  | enqueued {spec : JobSpec} {barrier : Barrier} (hb : barrier ≠ .none)
      (hfit : s.fits spec = true) (ht : t.outbox = (s.outbox.enqueue spec s.now).1) :
      AttemptBorn s t a (.submit spec barrier)
        { spec, job := (s.outbox.enqueue spec s.now).2, via := .inline,
          phase := .enqueued barrier }
  | tookUp {bridge : String} {limit batch i : Nat} {r : OutboxItem}
      (hdue : (i, r) ∈ s.outbox.due bridge limit s.now)
      (hr : t.outbox.get? i = some (lease s.now r)) (hl : t.latest i = some a) :
      AttemptBorn s t a (.drain bridge limit) (.ofRow batch (i, { r with state := .inflight }))

/-- An attempt after an event: changed from what it was, or born. -/
def AttemptAfter (s t : State) (e : Event) (a : Nat) : Prop :=
  match s.attempts.get? a with
  | some x => ∃ y, t.attempts.get? a = some y ∧ AttemptChange s t a x e y
  | none => ∀ y, t.attempts.get? a = some y → AttemptBorn s t a e y

namespace AttemptAfter

variable {s t : State} {e : Event} {a : Nat}

/-- An event of no attempt, other than a crash, leaves the attempts alone. -/
theorem of_same (ht : t.attempts = s.attempts) (ha : e.attempt? = none) (hc : e ≠ .crash) :
    AttemptAfter s t e a := by
  unfold AttemptAfter
  rw [ht]
  split
  · next x hx => exact ⟨x, hx, .same (by simp [ha]) (fun h => absurd h hc)⟩
  · next hx =>
      intro y h
      simp [hx] at h

/-- An event of one attempt. -/
theorem of_modify (f : Attempt → Attempt) {b : Nat} {x : Attempt}
    (hx : s.attempts.get? b = some x) (ht : t.attempts = s.attempts.modify b f)
    (ha : e.attempt? = some b) (hc : AttemptChange s t b x e (f x)) : AttemptAfter s t e a := by
  unfold AttemptAfter
  rw [ht]
  by_cases hab : a = b
  · subst hab
    rw [hx, Table.get?_modify_self, hx]
    exact ⟨f x, rfl, hc⟩
  · rw [Table.get?_modify_ne _ _ hab]
    split
    · next y hy =>
        have hcrash : e ≠ .crash := by rintro rfl; simp [Event.attempt?] at ha
        exact ⟨y, hy, .same (by simp [ha, Ne.symm hab]) (fun h => absurd h hcrash)⟩
    · next hy =>
        intro y h
        simp [hy] at h

/-- An event that kills the attempts of a condition. -/
theorem of_kill (p : Nat → Attempt → Bool)
    (ht : t.attempts = s.attempts.update p fun y => { y with phase := .dead })
    (hsame : ∀ x, p a x = false → e.attempt? = some a → ∃ q, x = { x with phase := q } ∧
      (q = .over ∨ q = .dead))
    (hcrash : ∀ x, p a x = false → e = .crash → x.phase.running = false)
    (hm : marksOf s e = []) : AttemptAfter s t e a := by
  unfold AttemptAfter
  rw [ht]
  split
  · next x hx =>
      rw [Table.get?_update, hx]
      by_cases hp : p a x = true
      · exact ⟨{ x with phase := .dead }, by simp [hp], .ended (.inr rfl) hm (by simp)⟩
      · have hp' : p a x = false := by simpa using hp
        refine ⟨x, by simp [hp], ?_⟩
        by_cases ha : e.attempt? = some a
        · obtain ⟨q, hq, hend⟩ := hsame x hp' ha
          rw [hq]
          exact .ended hend hm fun hq' hu => by rw [hq] at hu; simp [hq'] at hu
        · exact .same ha (hcrash x hp')
  · next hx =>
      intro y h
      simp [Table.get?_update, hx] at h

end AttemptAfter

/-! ## one event -/

/-- What holds after an event, of every row, every attempt and the log. -/
structure After (s t : State) (e : Event) : Prop where
  row : ∀ i, RowAfter s t e i
  attempt : ∀ a, AttemptAfter s t e a
  log : t.log = marksOf s e ++ s.log

/-- An event of no attempt that leaves attempts and log alone. -/
theorem After.of_rows {s t : State} {e : Event} (hrow : ∀ i, RowAfter s t e i)
    (ht : t.attempts = s.attempts) (hlog : t.log = s.log) (ha : e.attempt? = none)
    (hc : e ≠ .crash) : After s t e where
  row := hrow
  attempt _ := .of_same ht ha hc
  log := by
    rw [hlog]
    cases e <;> first | rfl | simp [Event.attempt?] at ha

theorem writer?_of_attempt? {e : Event} (h : e.attempt? = none) : e.writer? = none := by
  cases e <;> first | rfl | simp [Event.attempt?] at h

/-- … and outbox and claims, too. -/
theorem After.of_same {s t : State} {e : Event} (ho : t.outbox = s.outbox)
    (hl : t.latest = s.latest) (ht : t.attempts = s.attempts) (hlog : t.log = s.log)
    (ha : e.attempt? = none) (hc : e ≠ .crash) : After s t e :=
  .of_rows (fun _ => .of_same ho hl (writer?_of_attempt? ha)) ht hlog ha hc

/-- … or writes one row. -/
theorem After.of_write {s t : State} {e : Event} {j : Nat} {f : OutboxItem → OutboxItem}
    (ho : t.outbox = s.outbox.modify j f) (hl : t.latest = s.latest)
    (ht : t.attempts = s.attempts) (hlog : t.log = s.log) (ha : e.attempt? = none)
    (hc : e ≠ .crash) (hrow : ∀ r, RowChange s j r e (f r) (s.latest j)) : After s t e :=
  .of_rows (fun _ => .of_modify ho hl (writesOnly_of_none (writer?_of_attempt? ha))
    fun r hi => hi ▸ hrow r) ht hlog ha hc

theorem after_submit {s : State} {spec : JobSpec} {barrier : Barrier}
    (hfit : s.fits spec = true) : After s (s.submit spec barrier) (.submit spec barrier) := by
  have hattempts : ∀ {y : Attempt} {t : State}, t.attempts = s.attempts.insert y →
      (∀ a, AttemptBorn s t a (.submit spec barrier) y) →
      ∀ a, AttemptAfter s t (.submit spec barrier) a := by
    intro y t ht hborn a
    unfold AttemptAfter
    rw [ht]
    split
    · next x hx =>
        refine ⟨x, ?_, .same (by simp [Event.attempt?]) (by simp)⟩
        rw [Table.get?_insert, if_neg (Table.lt_next hx).ne, hx]
    · next hx =>
        intro z hz
        rw [Table.get?_insert, hx] at hz
        split at hz
        · cases hz
          exact hborn a
        · cases hz
  have hpending : ∀ {t : State}, t.outbox = (s.outbox.enqueue spec s.now).1 →
      t.latest = s.latest → ∀ i, RowAfter s t (.submit spec barrier) i := by
    intro t ht hl i
    refine .of_pending hl rfl (fun r hr => ht ▸ enqueue_keep hr) fun r' hnone h => ?_
    obtain ⟨rfl, hi⟩ := enqueue_born hnone (ht ▸ h)
    exact .submitted hi.ge
  cases barrier with
  | none => exact ⟨fun i => .of_same rfl rfl rfl, hattempts rfl fun a => .submitted, rfl⟩
  | direction | kind =>
      exact ⟨hpending rfl rfl, hattempts rfl fun a => .enqueued (by simp) hfit rfl, rfl⟩

theorem after_check {s t : State} {a : Nat} {x : Attempt} (hx : s.attempts.get? a = some x)
    (h : s.check a x = some t) : After s t (.check a) := by
  have hmoves : ∀ p, t = s.setPhase a p →
      AttemptChange s t a x (.check a) { x with phase := p } → After s t (.check a) := by
    rintro p rfl hchange
    exact ⟨fun i => .of_same rfl rfl rfl,
      fun b => .of_modify (fun x => { x with phase := p }) hx rfl rfl hchange, rfl⟩
  unfold State.check at h
  split at h
  · next barrier hp =>
      refine hmoves _ (Option.some.inj h).symm ?_
      cases hb : s.blocked x barrier with
      | true => exact .ended (.inl rfl) rfl fun _ hu => by rw [hp] at hu; cases hu
      | false => exact .unblocked hp hb
  · next hp =>
      split at h
      · cases h
      · refine hmoves _ (Option.some.inj h).symm ?_
        cases hb : s.blocked x .direction with
        | true => exact .mustWait hp
        | false => exact .cleared hp hb
  · cases h

/-- Who may not send it finds a job under its key. -/
theorem claimForAttempt_not_ours {o o' : Outbox} {spec : JobSpec} {stamp id : Nat}
    (h : o.claimForAttempt spec stamp = (o', id, false)) :
    ∃ row, o.bySourceKey spec.sourceKey = some row := by
  unfold claimForAttempt at h
  split at h
  · next i r hkey => exact ⟨(i, r), hkey⟩
  · cases h

theorem after_claim {s : State} {a : Nat} {x : Attempt} (hx : s.attempts.get? a = some x)
    (hp : x.phase = .unblocked) (hfit : s.fits x.spec = true) :
    After s (s.claim a x) (.claim a) := by
  refine ⟨rowAfter_claim hx hp, fun b => ?_, ?_⟩
  · cases hclaim : s.outbox.claimForAttempt x.spec s.now with
    | mk outbox rest =>
        obtain ⟨id, ours⟩ := rest
        cases ours with
        | true =>
            have hl : (s.claim a x).latest id = some a := by simp [State.claim, hclaim]
            exact .of_modify (fun x => { x with job := id, phase := .cleared }) hx
              (by simp [State.claim, hclaim]) rfl
              (.claimed hp hfit hclaim (by simp [State.claim, hclaim]) hl)
        | false =>
            exact .of_modify (fun x => { x with phase := .over }) hx
              (by simp [State.claim, hclaim]) rfl
              (.ended (.inl rfl) rfl fun _ _ => claimForAttempt_not_ours hclaim)
  · unfold State.claim
    split <;> rfl

theorem after_drain (s : State) (bridge : String) (limit : Nat) :
    After s (s.drain bridge limit) (.drain bridge limit) := by
  refine ⟨rowAfter_drain s bridge limit, fun a => ?_, ?_⟩
  · unfold AttemptAfter
    split
    · next x hx =>
        exact ⟨x, State.foldl_takeUp_attempts_mono hx,
          .same (by simp [Event.attempt?]) (by simp)⟩
    · next hx =>
        intro y hy
        have hsorted : ((s.outbox.due bridge limit s.now).map fun r =>
            (r.1, { r.2 with state := OutboxState.inflight })).Pairwise fun p q => p.1 < q.1 :=
          List.pairwise_map.mpr (due_sorted ..)
        rcases State.foldl_takeUp_attempts hsorted hy with hold | ⟨_, row, hrow, rfl, hl⟩
        · simp [hx] at hold
        · obtain ⟨⟨i, r⟩, hdue, rfl⟩ := List.mem_map.mp hrow
          refine .tookUp hdue ?_ hl
          rw [drain_outbox, (due_pending hdue).1, Option.map_some, if_pos hdue]
  · simp [State.drain, marksOf]

theorem after_settle {s : State} {a : Nat} {x : Attempt} {outcome : Outcome} {backoff : Nat}
    (hx : s.attempts.get? a = some x) (hp : x.phase = .inSender)
    (ho : outcome.possible x.spec.kind = true) :
    After s (s.settle a x outcome backoff) (.settle a outcome backoff) := by
  have hout : (s.settle a x outcome backoff).outbox =
      s.outbox.modify x.job (x.settleRow outcome backoff s.now) := by
    unfold State.settle
    split <;> rfl
  have hl : (s.settle a x outcome backoff).latest = s.latest := by
    unfold State.settle
    split <;> rfl
  have ht : (s.settle a x outcome backoff).attempts =
      s.attempts.modify a fun x => { x with phase := .over } := by
    unfold State.settle
    split <;> rfl
  refine ⟨fun i => .of_modify hout hl (writesOnly_own hx rfl)
      fun r hi => .settled hx hp hi.symm ho,
    fun b => .of_modify (fun x => { x with phase := .over }) hx ht rfl (.settled hp), ?_⟩
  unfold State.settle
  cases h : x.settledRetry outcome <;> simp [marksOf, hx, h]

theorem after_enqueueBatch (s : State) (specs : List JobSpec) :
    After s { s with outbox := s.outbox.enqueueBatch specs s.now } (.enqueueBatch specs) := by
  refine .of_rows (fun i => ?_) rfl rfl rfl (by simp)
  refine .of_pending rfl rfl (fun r hr => enqueueBatch_keep hr) fun r' hnone hr => ?_
  obtain ⟨spec, hmem, rfl, hi⟩ := enqueueBatch_born hnone hr
  exact .batched hmem hi

section

variable {s : State} {a : Nat} {x : Attempt}

theorem after_wait (hx : s.attempts.get? a = some x) (hp : x.phase = .waiting) :
    After s ((s.writeRow x.job (Outbox.defer orderWaitMs s.now)).setPhase a .over) (.wait a) where
  row _ := .of_modify rfl rfl (writesOnly_own hx rfl) fun _ hi => .waited hx hp hi.symm
  attempt _ := .of_modify (fun x => { x with phase := .over }) hx rfl rfl
    (.ended (.inl rfl) rfl fun _ hu => by rw [hp] at hu; cases hu)
  log := rfl

theorem after_enter (hx : s.attempts.get? a = some x) (hp : x.phase = .cleared) :
    After s ((s.setPhase a .inSender).note
      (.entered x.job a x.spec.bridgeName x.spec.direction)) (.enter a) where
  row _ := .of_same rfl rfl rfl
  attempt _ := .of_modify (fun x => { x with phase := .inSender }) hx rfl rfl (.entered hp)
  log := by simp [marksOf, hx]

theorem after_sending (hx : s.attempts.get? a = some x) (hp : x.phase = .inSender) :
    After s (((s.writeRow x.job (Outbox.markSending s.now)).setAttempt a
      fun x => { x with marked := true }).note
        (.fired x.job a x.spec.bridgeName x.spec.direction)) (.sending a) where
  row _ := .of_modify rfl rfl (writesOnly_own hx rfl) fun _ hi => .fired hx hp hi.symm
  attempt _ := .of_modify (fun x => { x with marked := true }) hx rfl rfl (.marked hp (.inl rfl))
  log := by simp [marksOf, hx]

theorem after_sendingLost (hx : s.attempts.get? a = some x) (hp : x.phase = .inSender) :
    After s (s.setAttempt a fun x => { x with marked := true }) (.sendingLost a) where
  row _ := .of_same rfl rfl rfl
  attempt _ := .of_modify (fun x => { x with marked := true }) hx rfl rfl (.marked hp (.inr rfl))
  log := rfl

theorem after_die : After s (s.die a x) (.die a) := by
  refine ⟨fun i => .of_same rfl rfl rfl, fun b => ?_, rfl⟩
  refine .of_kill (fun b y => y.phase.running && (b == a || x.sameBatch y)) rfl ?_ (by simp) rfl
  intro y hy hb
  obtain rfl : a = b := by simpa [Event.attempt?] using hb
  have hrun : y.phase.running = false := by simpa using hy
  exact ⟨y.phase, rfl, by cases hq : y.phase <;> simp_all [Phase.running]⟩

end

theorem after_cancelPending (s : State) (key reason : String) :
    After s { s with outbox := s.outbox.cancelPending key reason s.now }
      (.cancelPending key reason) := by
  refine .of_rows (fun i => ?_) rfl rfl rfl (by simp)
  refine .of_update (fun _ r => r.sourceKey == some key && unsent r) (cancel reason s.now)
    rfl rfl rfl fun r hr => ?_
  obtain ⟨hkey, hu⟩ := Bool.and_eq_true_iff.mp hr
  exact .cancelled hu (beq_iff_eq.mp hkey)

theorem after_replacePendingPayload (s : State) (key : String) (payload : Payload) :
    After s { s with outbox := s.outbox.replacePendingPayload key payload s.now }
      (.replacePendingPayload key payload) := by
  refine .of_rows (fun i => ?_) rfl rfl rfl (by simp)
  refine .of_update (fun _ r => r.sourceKey == some key && unsent r) (rewrite payload s.now)
    rfl rfl rfl fun r hr => ?_
  obtain ⟨hkey, hu⟩ := Bool.and_eq_true_iff.mp hr
  exact .rewritten (notWritten_of_none rfl) (beq_iff_eq.mp hkey) (.inl ⟨rfl, hu⟩)

theorem after_replaceFailedPayload (s : State) (key : String) (payload : Payload) :
    After s { s with outbox := s.outbox.replaceFailedPayload key payload s.now }
      (.replaceFailedPayload key payload) := by
  refine .of_rows (fun i => ?_) rfl rfl rfl (by simp)
  refine .of_update (fun _ r => r.sourceKey == some key && r.state == .failed)
    (rewrite payload s.now) rfl rfl rfl fun r hr => ?_
  obtain ⟨hkey, hf⟩ := Bool.and_eq_true_iff.mp hr
  exact .rewritten (notWritten_of_none rfl) (beq_iff_eq.mp hkey) (.inr ⟨rfl, beq_iff_eq.mp hf⟩)

/-- What the running process does. -/
theorem stepUp_after {s t : State} {e : Event} (h : stepUp s e = some t) : After s t e := by
  cases e with
  | submit spec barrier =>
      simp only [stepUp, Option.ite_none_right_eq_some, Option.some.injEq] at h
      obtain ⟨hfit, rfl⟩ := h
      exact after_submit hfit
  | enqueueBatch specs =>
      simp only [stepUp, Option.ite_none_right_eq_some, Option.some.injEq] at h
      obtain ⟨-, rfl⟩ := h
      exact after_enqueueBatch s specs
  | check a =>
      obtain ⟨x, hx, hcheck⟩ := Option.bind_eq_some_iff.mp h
      exact after_check hx hcheck
  | claim a =>
      obtain ⟨x, hx, hp, hclaim⟩ := State.ofPhase_eq_some h
      simp only [Option.ite_none_right_eq_some, Option.some.injEq] at hclaim
      obtain ⟨hfit, rfl⟩ := hclaim
      exact after_claim hx hp hfit
  | drain bridge limit =>
      simp only [stepUp, Option.ite_none_left_eq_some, Option.some.injEq] at h
      obtain ⟨-, rfl⟩ := h
      exact after_drain s bridge limit
  | wait a =>
      obtain ⟨x, hx, hp, ht⟩ := State.ofPhase_eq_some h
      obtain rfl := Option.some.inj ht
      exact after_wait hx hp
  | enter a =>
      obtain ⟨x, hx, hp, ht⟩ := State.ofPhase_eq_some h
      obtain rfl := Option.some.inj ht
      exact after_enter hx hp
  | sending a =>
      obtain ⟨x, hx, hp, ht⟩ := State.ofPhase_eq_some h
      obtain rfl := Option.some.inj ht
      exact after_sending hx hp
  | sendingLost a =>
      obtain ⟨x, hx, hp, ht⟩ := State.ofPhase_eq_some h
      obtain rfl := Option.some.inj ht
      exact after_sendingLost hx hp
  | settle a outcome backoff =>
      obtain ⟨x, hx, hp, hsettle⟩ := State.ofPhase_eq_some h
      simp only [Option.ite_none_right_eq_some, Option.some.injEq] at hsettle
      obtain ⟨ho, rfl⟩ := hsettle
      exact after_settle hx hp ho
  | die a =>
      obtain ⟨x, -, rfl⟩ := Option.map_eq_some_iff.mp h
      exact after_die
  | reclaimSelect | expireSelect =>
      simp only [stepUp] at h
      split at h <;> cases h
      exact .of_same rfl rfl rfl rfl rfl (by simp)
  | reclaimWrite =>
      simp only [stepUp] at h
      split at h
      · next stamp i wasStarted rest hs =>
          cases h
          exact .of_write rfl rfl rfl rfl rfl (by simp) fun r => .reclaimed hs
      · cases h
  | expireWrite =>
      simp only [stepUp] at h
      split at h
      · next i rest hs =>
          cases h
          exact .of_write rfl rfl rfl rfl rfl (by simp) fun r => .expired hs
      · cases h
  | sweepStop =>
      cases h
      exact .of_same rfl rfl rfl rfl rfl (by simp)
  | decide job decision =>
      simp only [stepUp] at h
      split at h
      · split at h <;> cases h
        exact .of_same rfl rfl rfl rfl rfl (by simp)
      · cases h
  | decideWrite index =>
      simp only [stepUp] at h
      split at h
      · next job decision read hd =>
          cases h
          exact .of_write rfl rfl rfl rfl rfl (by simp) fun r => .decided hd
      · cases h
  | cancelPending key reason =>
      cases h
      exact after_cancelPending s key reason
  | replacePendingPayload key payload =>
      cases h
      exact after_replacePendingPayload s key payload
  | replaceFailedPayload key payload =>
      cases h
      exact after_replaceFailedPayload s key payload
  | clock now | crash | requeueSelect | requeueWrite | started => cases h

/-- What the starting process does. -/
theorem stepStart_after {s t : State} {e : Event} (h : stepStart s e = some t) :
    After s t e := by
  cases e with
  | requeueSelect | started =>
      simp only [stepStart] at h
      split at h <;> cases h
      exact .of_same rfl rfl rfl rfl rfl (by simp)
  | requeueWrite =>
      simp only [stepStart] at h
      split at h
      · next i wasStarted rest hm =>
          cases h
          exact .of_write rfl rfl rfl rfl rfl (by simp) fun r => .requeued hm
      · cases h
  | _ => cases h

/-- The four sorts of event. -/
theorem step_cases {s t : State} {e : Event} (h : step s e = some t) :
    (∃ now, e = .clock now ∧ t = { s with now }) ∨ (e = .crash ∧ t = s.crash) ∨
      (s.mode = .up ∧ stepUp s e = some t) ∨ (s.mode ≠ .up ∧ stepStart s e = some t) := by
  unfold step at h
  split at h
  · exact .inl ⟨_, rfl, (Option.some.inj h).symm⟩
  · exact .inr (.inl ⟨rfl, (Option.some.inj h).symm⟩)
  · split at h
    · next hup => exact .inr (.inr (.inl ⟨hup, h⟩))
    · next hup => exact .inr (.inr (.inr ⟨hup, h⟩))

/-- **What one event can do**: every row, every attempt and the log after it. -/
theorem step_after {s t : State} {e : Event} (h : step s e = some t) : After s t e := by
  rcases step_cases h with ⟨now, rfl, rfl⟩ | ⟨rfl, rfl⟩ | ⟨-, hup⟩ | ⟨-, hstart⟩
  · exact .of_same rfl rfl rfl rfl rfl (by simp)
  · exact ⟨fun i => .of_same rfl rfl rfl,
      fun a => .of_kill (fun _ y => y.phase.running) rfl (by simp [Event.attempt?])
        (fun x hx _ => hx) rfl, rfl⟩
  · exact stepUp_after hup
  · exact stepStart_after hstart

end Telemax.Queue
