import Telemax.Lib.Table
import Telemax.Storage.Models

/-!
# Telemax.Storage.Outbox

The outbox repository.  Every definition here is one transaction or one
statement of the code; a method that reads first and writes in a later statement
is split into the two halves, because other tasks run in between.  `stamp` is
the clock reading the method takes.

The settlement writes (`markDone` … `defer`) and both sweeps' writes are updates
by id alone: none of them asks whether its caller still holds the job.
-/

namespace Telemax

abbrev Outbox := Table OutboxItem

def defaultLeaseMs : Nat := 120000
def defaultTtlMs : Nat := 24 * 60 * 60 * 1000

/-- `error[:500]`. -/
def clip (error : String) : String := String.ofList (error.toList.take 500)

namespace Outbox

/-- The row under a source key; the column is unique. -/
def bySourceKey (o : Outbox) (key : String) : Option (Nat × OutboxItem) :=
  o.first fun _ r => r.sourceKey == some key

/-! ## creating and claiming -/

/-- The row `enqueue` inserts. -/
def newPending (spec : JobSpec) (stamp : Nat) : OutboxItem where
  bridgeName := spec.bridgeName
  direction := spec.direction
  kind := spec.kind
  payload := spec.payload
  nextAttemptAt := stamp
  state := .pending
  createdAt := stamp
  updatedAt := stamp
  sourceKey := some spec.sourceKey
  expiresAt := some (stamp + defaultTtlMs)

/-- The row `claim_for_attempt` inserts: born leased. -/
def newLeased (spec : JobSpec) (stamp : Nat) : OutboxItem where
  bridgeName := spec.bridgeName
  direction := spec.direction
  kind := spec.kind
  payload := spec.payload
  nextAttemptAt := stamp
  state := .inflight
  createdAt := stamp
  updatedAt := stamp
  sourceKey := some spec.sourceKey
  leaseExpiresAt := some (stamp + defaultLeaseMs)
  expiresAt := some (stamp + defaultTtlMs)

/-- `enqueue`: the job under this source key, created if there is none. -/
def enqueue (o : Outbox) (spec : JobSpec) (stamp : Nat) : Outbox × Nat :=
  match o.bySourceKey spec.sourceKey with
  | some (id, _) => (o, id)
  | none => (o.insert (newPending spec stamp), o.next)

/-- `enqueue_batch`: an ordered set of jobs in one transaction. -/
def enqueueBatch (o : Outbox) (specs : List JobSpec) (stamp : Nat) : Outbox :=
  specs.foldl (fun o spec => (o.enqueue spec stamp).1) o

/-- `enqueue` keeps every row, and a row it adds is the new pending one. -/
theorem enqueue_keep {o : Outbox} {spec : JobSpec} {stamp i : Nat} {r : OutboxItem}
    (h : o.get? i = some r) : (o.enqueue spec stamp).1.get? i = some r := by
  unfold enqueue
  split
  · exact h
  · rw [Table.get?_insert, if_neg (Nat.ne_of_lt (Table.lt_next h)), h]

theorem enqueue_born {o : Outbox} {spec : JobSpec} {stamp i : Nat} {r : OutboxItem}
    (hnone : o.get? i = none) (h : (o.enqueue spec stamp).1.get? i = some r) :
    r = newPending spec stamp ∧ i = o.next := by
  unfold enqueue at h
  split at h
  · simp [hnone] at h
  · rw [Table.get?_insert, hnone] at h
    split at h
    · next hi =>
        cases h
        exact ⟨rfl, hi⟩
    · cases h

theorem next_le_enqueue (o : Outbox) (spec : JobSpec) (stamp : Nat) :
    o.next ≤ (o.enqueue spec stamp).1.next := by
  unfold enqueue
  split
  · exact Nat.le_refl _
  · exact Nat.le_succ _

/-- So does `enqueue_batch`, with one pending row for each new source key. -/
theorem enqueueBatch_keep {specs : List JobSpec} {o : Outbox} {stamp i : Nat} {r : OutboxItem}
    (h : o.get? i = some r) : (o.enqueueBatch specs stamp).get? i = some r := by
  unfold enqueueBatch
  induction specs generalizing o with
  | nil => exact h
  | cons spec specs ih => exact ih (enqueue_keep h)

theorem enqueueBatch_born {specs : List JobSpec} {o : Outbox} {stamp i : Nat} {r : OutboxItem}
    (hnone : o.get? i = none) (h : (o.enqueueBatch specs stamp).get? i = some r) :
    ∃ spec ∈ specs, r = newPending spec stamp ∧ o.next ≤ i := by
  unfold enqueueBatch at h
  induction specs generalizing o with
  | nil =>
      rw [List.foldl_nil, hnone] at h
      cases h
  | cons spec specs ih =>
      rw [List.foldl_cons] at h
      cases hi : (o.enqueue spec stamp).1.get? i with
      | some r' =>
          obtain ⟨rfl, hnext⟩ := enqueue_born hnone hi
          have hkept : (enqueueBatch _ specs stamp).get? i = some (newPending spec stamp) :=
            enqueueBatch_keep hi
          rw [enqueueBatch, h, Option.some.injEq] at hkept
          exact ⟨spec, List.mem_cons_self, hkept, Nat.le_of_eq hnext.symm⟩
      | none =>
          obtain ⟨spec', hmem, hr, hle⟩ := ih hi h
          exact ⟨spec', List.mem_cons_of_mem _ hmem, hr, Nat.le_trans (next_le_enqueue ..) hle⟩

/-- Put a row in somebody's hands until the lease ends. -/
def lease (stamp : Nat) (r : OutboxItem) : OutboxItem :=
  { r with state := .inflight, leaseExpiresAt := some (stamp + defaultLeaseMs),
           updatedAt := stamp }

/-- Held: in flight with a lease that still runs. -/
def held (r : OutboxItem) (stamp : Nat) : Bool :=
  r.state == .inflight && decide (stamp < r.leaseExpiresAt.getD 0)

/-- What `claim_for_attempt` takes: a pending row, or one in flight that is not held. -/
def takeable (r : OutboxItem) (stamp : Nat) : Bool :=
  r.state == .pending || (r.state == .inflight && !held r stamp)

/-- `claim_for_attempt`: the job's id, and whether the caller may send it. -/
def claimForAttempt (o : Outbox) (spec : JobSpec) (stamp : Nat) : Outbox × Nat × Bool :=
  match o.bySourceKey spec.sourceKey with
  | some (id, r) =>
      if takeable r stamp then (o.modify id (lease stamp), id, true) else (o, id, false)
  | none => (o.insert (newLeased spec stamp), o.next, true)

/-- What `claim_due` takes: of the first `limit` pending rows of the bridge, the
contiguous prefix that is due. -/
def due (o : Outbox) (bridge : String) (limit stamp : Nat) : List (Nat × OutboxItem) :=
  ((o.select fun _ r => r.bridgeName == bridge && r.state == .pending).take limit).takeWhile
    fun r => decide (r.2.nextAttemptAt ≤ stamp)

/-- `claim_due`: lease the due head of the queue and hand out its rows. -/
def claimDue (o : Outbox) (bridge : String) (limit stamp : Nat) :
    Outbox × List (Nat × OutboxItem) :=
  let taken := o.due bridge limit stamp
  (o.update (fun i _ => (taken.map (·.1)).contains i) (lease stamp),
    taken.map fun r => (r.1, { r.2 with state := .inflight }))

/-! ## one row for each source key -/

/-- The unique index on `source_key`. -/
def UniqueKeys (o : Outbox) : Prop :=
  ∀ i j r r' key, o.get? i = some r → o.get? j = some r' → r.sourceKey = some key →
    r'.sourceKey = some key → i = j

theorem bySourceKey_none {o : Outbox} {key : String} (h : o.bySourceKey key = none) {i : Nat}
    {r : OutboxItem} (hr : o.get? i = some r) : r.sourceKey ≠ some key := by
  simpa using Table.first_none h hr

theorem bySourceKey_some {o : Outbox} {key : String} {i : Nat} {r : OutboxItem}
    (h : o.bySourceKey key = some (i, r)) : o.get? i = some r ∧ r.sourceKey = some key := by
  simpa using Table.first_some h

/-- The row with a key is the one the key finds. -/
theorem UniqueKeys.bySourceKey_eq {o : Outbox} (hu : o.UniqueKeys) {key : String} {i : Nat}
    {r : OutboxItem} (hr : o.get? i = some r) (hk : r.sourceKey = some key) :
    o.bySourceKey key = some (i, r) := by
  cases h : o.bySourceKey key with
  | none => exact absurd hk (bySourceKey_none h hr)
  | some found =>
      obtain ⟨j, r'⟩ := found
      obtain ⟨hr', hk'⟩ := bySourceKey_some h
      obtain rfl := hu _ _ _ _ _ hr hr' hk hk'
      rw [hr, Option.some.injEq] at hr'
      rw [hr']

theorem UniqueKeys.insert {o : Outbox} (hu : o.UniqueKeys) {key : String} {r : OutboxItem}
    (hnone : o.bySourceKey key = none) (hk : r.sourceKey = some key) :
    UniqueKeys (Table.insert o r) := by
  intro i j p q k hp hq hpk hqk
  rw [Table.get?_insert] at hp hq
  split at hp <;> split at hq
  · next hi hj => rw [hi, hj]
  · cases hp
    rw [hk, Option.some.injEq] at hpk
    exact absurd (hpk ▸ hqk) (bySourceKey_none hnone hq)
  · cases hq
    rw [hk, Option.some.injEq] at hqk
    exact absurd (hqk ▸ hpk) (bySourceKey_none hnone hp)
  · exact hu i j p q k hp hq hpk hqk

/-- What adds no row and keeps every key keeps the index. -/
theorem UniqueKeys.of_kept {o o' : Outbox} (hu : o.UniqueKeys)
    (h : ∀ i r', o'.get? i = some r' → ∃ r, o.get? i = some r ∧ r'.sourceKey = r.sourceKey) :
    o'.UniqueKeys := by
  intro i j p q k hp hq hpk hqk
  obtain ⟨p', hp', hpk'⟩ := h i p hp
  obtain ⟨q', hq', hqk'⟩ := h j q hq
  exact hu i j p' q' k hp' hq' (hpk' ▸ hpk) (hqk' ▸ hqk)

theorem UniqueKeys.enqueue {o : Outbox} (hu : o.UniqueKeys) (spec : JobSpec) (stamp : Nat) :
    (o.enqueue spec stamp).1.UniqueKeys := by
  unfold Outbox.enqueue
  split
  · exact hu
  · next hnone => exact hu.insert hnone rfl

theorem UniqueKeys.enqueueBatch {specs : List JobSpec} {o : Outbox} (hu : o.UniqueKeys)
    (stamp : Nat) : (o.enqueueBatch specs stamp).UniqueKeys := by
  unfold Outbox.enqueueBatch
  induction specs generalizing o with
  | nil => exact hu
  | cons spec specs ih => exact ih (hu.enqueue spec stamp)

/-- After `enqueue` the key has a row, and that is the job's. -/
theorem enqueue_row (o : Outbox) (spec : JobSpec) (stamp : Nat) :
    ∃ r, (o.enqueue spec stamp).1.get? (o.enqueue spec stamp).2 = some r ∧
      r.sourceKey = some spec.sourceKey ∧
      (o.bySourceKey spec.sourceKey = some ((o.enqueue spec stamp).2, r) ∨
        r = newPending spec stamp) := by
  unfold enqueue
  split
  · next id r hkey => exact ⟨r, (bySourceKey_some hkey).1, (bySourceKey_some hkey).2, .inl hkey⟩
  · exact ⟨newPending spec stamp, by rw [Table.get?_insert, if_pos rfl], rfl, .inr rfl⟩

/-! ## settling -/

/-- `mark_done`. -/
def markDone (remoteId : Option Int) (stamp : Nat) (r : OutboxItem) : OutboxItem :=
  { r with state := .done, lastError := none, remoteMessageId := remoteId,
           leaseExpiresAt := none, sendStartedAt := none, payload := .cleared,
           updatedAt := stamp }

/-- `mark_sending`: stamp the moment just before the remote call goes out. -/
def markSending (stamp : Nat) (r : OutboxItem) : OutboxItem :=
  { r with sendStartedAt := some stamp, updatedAt := stamp }

/-- `mark_ambiguous`. -/
def markAmbiguous (error : String) (stamp : Nat) (r : OutboxItem) : OutboxItem :=
  { r with state := .ambiguous, attempts := r.attempts + 1, ambiguousAt := some stamp,
           leaseExpiresAt := none, lastError := some (clip error), updatedAt := stamp }

/-- `mark_expired`. -/
def markExpired (stamp : Nat) (r : OutboxItem) : OutboxItem :=
  { r with state := .expired, leaseExpiresAt := none, payload := .cleared,
           lastError := some "ttl expired: the job waited its whole life undelivered",
           updatedAt := stamp }

/-- `mark_retry`. -/
def markRetry (delayMs : Nat) (error : String) (costsAttempt : Bool) (stamp : Nat)
    (r : OutboxItem) : OutboxItem :=
  { r with state := .pending, attempts := r.attempts + (if costsAttempt then 1 else 0),
           leaseExpiresAt := none, sendStartedAt := none, nextAttemptAt := stamp + delayMs,
           lastError := some (clip error), updatedAt := stamp }

/-- `mark_failed`. -/
def markFailed (error : String) (stamp : Nat) (r : OutboxItem) : OutboxItem :=
  { r with state := .failed, attempts := r.attempts + 1, leaseExpiresAt := none,
           lastError := some (clip error), updatedAt := stamp }

/-- `defer`. -/
def defer (delayMs stamp : Nat) (r : OutboxItem) : OutboxItem :=
  { r with state := .pending, leaseExpiresAt := none, sendStartedAt := none,
           nextAttemptAt := stamp + delayMs, updatedAt := stamp }

/-! ## recovery -/

/-- What a recovery pass remembers of a row it selected: whether a send had begun. -/
def started (r : OutboxItem) : Bool := r.sendStartedAt.isSome

/-- The `WHERE` of `reclaim_expired_leases`. -/
def leaseExpired (stamp : Nat) (r : OutboxItem) : Bool :=
  r.state == .inflight && r.leaseExpiresAt.any fun lease => decide (lease ≤ stamp)

/-- The rows `reclaim_expired_leases` selects. -/
def expiredLeases (o : Outbox) (stamp : Nat) : List (Nat × Bool) :=
  (o.select fun _ r => leaseExpired stamp r).map fun r => (r.1, started r.2)

/-- The rows `requeue_inflight` selects. -/
def inflightRows (o : Outbox) : List (Nat × Bool) :=
  (o.select fun _ r => r.state == .inflight).map fun r => (r.1, started r.2)

/-- Back to the queue: the statement both recovery passes share. -/
def requeue (stamp : Nat) (r : OutboxItem) : OutboxItem :=
  { r with state := .pending, leaseExpiresAt := none, updatedAt := stamp }

/-- What a recovery pass writes to one row, by what it read of it.  `read` is the
stamp of the pass, `now` the one `mark_ambiguous` takes for itself. -/
def recover (wasStarted : Bool) (read now : Nat) : OutboxItem → OutboxItem :=
  if wasStarted then markAmbiguous "the process died while sending; the result is unknown" now
  else requeue read

/-- The `WHERE` of `expire_overdue`. -/
def overdue (stamp : Nat) (r : OutboxItem) : Bool :=
  r.state == .pending && r.expiresAt.any fun expires => decide (expires ≤ stamp)

/-- The rows `expire_overdue` selects. -/
def overdueRows (o : Outbox) (stamp : Nat) : List Nat :=
  (o.select fun _ r => overdue stamp r).map (·.1)

/-! ## the owner's decisions -/

/-- What the owner decides about one job. -/
inductive Decision
  | retryNow
  | resolve
  | archive (reason : String)
  deriving DecidableEq, Repr

/-- The guard each decision reads before it writes. -/
def Decision.allows (r : OutboxItem) : Decision → Bool
  | retryNow => (r.state == .failed || r.state == .ambiguous) && r.payload != .cleared
  | resolve => r.state == .ambiguous
  | archive _ => r.state == .failed || r.state == .ambiguous || r.state == .expired

/-- `row["last_error"] or "no error recorded"`. -/
def previousError (r : OutboxItem) : String :=
  match r.lastError with
  | none | some "" => "no error recorded"
  | some error => error

/-- What each decision writes.  `archive` appends its reason to the error it
read; `read` is the row as the guard saw it. -/
def Decision.write (read : OutboxItem) (stamp : Nat) (r : OutboxItem) : Decision → OutboxItem
  | retryNow =>
      { r with state := .pending, nextAttemptAt := stamp, leaseExpiresAt := none,
               updatedAt := stamp }
  | resolve => { r with state := .done, payload := .cleared, updatedAt := stamp }
  | archive reason =>
      { r with state := .archived,
               lastError := some (clip s!"{previousError read} | archived: {reason}"),
               updatedAt := stamp }

/-! ## ordering and dependency queries -/

/-- `older_undelivered`. -/
def olderUndelivered (o : Outbox) (bridge : String) (direction : Direction) (beforeId : Nat) :
    Bool :=
  o.holdsOf fun i r =>
    r.bridgeName == bridge && r.direction == direction && decide (i < beforeId) &&
      r.state.undelivered

/-- `older_undelivered_kind`. -/
def olderUndeliveredKind (o : Outbox) (bridge : String) (direction : Direction)
    (kind : JobKind) (beforeId : Nat) : Bool :=
  o.holdsOf fun i r =>
    r.bridgeName == bridge && r.direction == direction && r.kind == kind &&
      decide (i < beforeId) && r.state.undelivered

/-- The pre-remote boundary: pending, and no send was ever stamped. -/
def unsent (r : OutboxItem) : Bool := r.state == .pending && r.sendStartedAt.isNone

/-- What `cancel_pending` writes. -/
def cancel (reason : String) (stamp : Nat) (r : OutboxItem) : OutboxItem :=
  { r with state := .archived, lastError := some (clip reason), updatedAt := stamp }

/-- What the two payload replacements write. -/
def rewrite (payload : Payload) (stamp : Nat) (r : OutboxItem) : OutboxItem :=
  { r with payload, updatedAt := stamp }

/-- `cancel_pending`: archive a send that has not touched the remote side yet. -/
def cancelPending (o : Outbox) (key reason : String) (stamp : Nat) : Outbox :=
  o.update (fun _ r => r.sourceKey == some key && unsent r) (cancel reason stamp)

/-- `replace_pending_payload`. -/
def replacePendingPayload (o : Outbox) (key : String) (payload : Payload) (stamp : Nat) :
    Outbox :=
  o.update (fun _ r => r.sourceKey == some key && unsent r) (rewrite payload stamp)

/-- `replace_failed_payload`. -/
def replaceFailedPayload (o : Outbox) (key : String) (payload : Payload) (stamp : Nat) :
    Outbox :=
  o.update (fun _ r => r.sourceKey == some key && r.state == .failed) (rewrite payload stamp)

/-- `rowcount > 0` of the three guarded updates above. -/
def anyUnsent (o : Outbox) (key : String) : Bool :=
  o.holdsOf fun _ r => r.sourceKey == some key && unsent r

end Outbox

end Telemax
