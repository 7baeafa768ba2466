import Telemax.Storage.Outbox
import Telemax.Routing.Settlement

/-!
# Telemax.Queue.Attempt

One attempt on one job, inline or by the bridge's worker: where it is between
its await points, and what it writes to the outbox when the sender has returned
or raised.  Both senders settle through `settle`; they differ in what they make
of a failure that is neither a question nor a deferral: the inline attempt
leaves the budget to the worker, the worker prices the failure against it.
-/

namespace Telemax

/-- What the sender did: returned a remote id, or raised. -/
inductive Outcome
  | delivered (remoteId : Option Int)
  | raised (error : SendError)
  deriving DecidableEq, Repr

/-- Kinds whose sender may wait for something that is not the job itself.  Only
these raise `DeferDelivery`. -/
def deferringKinds : List JobKind :=
  [.tgToMaxEdit, .tgToMaxDelete, .ownerEchoBind, .tgAlbumSweep, .maxToTgEdit, .maxToTgDelete]

/-- Can the sender of this kind end so? -/
def Outcome.possible (kind : JobKind) : Outcome → Bool
  | .raised (.deferDelivery _) => kind ∈ deferringKinds
  | _ => true

/-- A creating kind never defers. -/
theorem Outcome.not_defer_of_creating {kind : JobKind} {delay : Nat} (hk : isCreating kind = true)
    (h : Outcome.possible kind (.raised (.deferDelivery delay)) = true) : False := by
  cases kind <;> simp_all [Outcome.possible, deferringKinds, isCreating, creatingKinds]

/-! ## the inline attempt -/

/-- What `DeliveryPipe.attempt` writes after a failure. -/
def settleInline (v : Settlement) (stamp : Nat) : OutboxItem → OutboxItem :=
  match v.verdict with
  | .ambiguous => Outbox.markAmbiguous v.detail stamp
  | .defer => Outbox.defer v.delayMs stamp
  | .permanent => Outbox.markFailed s!"permanent: {v.detail}" stamp
  | .retry => Outbox.markRetry v.delayMs v.detail v.costsAttempt stamp

/-! ## the worker's attempt -/

/-- How long a job waits when something older in its direction is going out. -/
def orderWaitMs : Nat := 200

/-- `BackoffPolicy.max_attempts`. -/
def maxAttempts : Nat := 12

/-- `BackoffPolicy.exhausted`. -/
def exhausted (attempts : Nat) : Bool := decide (maxAttempts ≤ attempts)

/-- The number of attempts after this failure, as `_handle_failure` counts it. -/
def spent (attempts : Nat) (v : Settlement) : Nat :=
  if v.costsAttempt then attempts + 1 else attempts

/-- `_handle_failure`: one failed attempt, priced against the job's budget and
its clock.  `backoff` is the jittered delay of the policy. -/
def handleFailure (attempts : Nat) (error : SendError) (v : Settlement) (backoff stamp : Nat) :
    OutboxItem → OutboxItem :=
  let (retryable, forced) := classify error
  let retryable := retryable && v.verdict != .permanent
  let attempts := spent attempts v
  if !retryable || (v.costsAttempt && exhausted attempts) then
    let reason := if retryable then s!"gave up after {attempts} attempts" else "permanent"
    Outbox.markFailed s!"{reason}: {error.describe}" stamp
  else
    let delay :=
      if v.delayMs ≠ 0 then v.delayMs
      else match forced with
        | some seconds => seconds * msPerSecond
        | none => backoff
    Outbox.markRetry delay error.describe v.costsAttempt stamp

/-- What `OutboxWorker._attempt` writes after a failure. -/
def settleWorker (attempts : Nat) (error : SendError) (v : Settlement) (backoff stamp : Nat) :
    OutboxItem → OutboxItem :=
  match v.verdict with
  | .ambiguous => Outbox.markAmbiguous v.detail stamp
  | .defer => Outbox.defer v.delayMs stamp
  | .permanent | .retry =>
      if error = .cancelled then Outbox.markRetry 0 "cancelled" true stamp
      else handleFailure attempts error v backoff stamp

/-! ## attempts -/

/-- Who makes the attempt.  A worker's attempt belongs to the batch it was
claimed in and remembers the row's `attempts`. -/
inductive Via
  | inline
  | worker (batch attempts : Nat)
  deriving DecidableEq, Repr

/-- How a submission looks for older jobs before it claims its own. -/
inductive Barrier
  /-- `submit`: not at all. -/
  | none
  /-- `submit_in_order`: in the whole direction. -/
  | direction
  /-- `submit_in_kind_order`: among the jobs of its kind. -/
  | kind
  deriving DecidableEq, Repr

/-- Where an attempt stands between two awaits. -/
inductive Phase
  /-- The job is written down; older jobs are not looked for yet. -/
  | enqueued (barrier : Barrier)
  /-- About to call `claim_for_attempt`. -/
  | unblocked
  /-- Claimed by the worker with its batch; older jobs are not looked for yet. -/
  | inHand
  /-- The worker found an older job; about to call `defer`. -/
  | waiting
  /-- Claimed and in its turn; the sender is not entered yet. -/
  | cleared
  /-- Inside `send_job`. -/
  | inSender
  /-- Returned or raised. -/
  | over
  /-- Killed at an await, without a further write. -/
  | dead
  deriving DecidableEq, Repr

namespace Phase

/-- Holding a claim, and still running. -/
def claiming : Phase → Bool
  | inHand | waiting | cleared | inSender => true
  | _ => false

/-- Past the look at older jobs, and still running. -/
def inTurn : Phase → Bool
  | unblocked | cleared | inSender => true
  | _ => false

/-- Still running. -/
def running : Phase → Bool
  | .over | .dead => false
  | _ => true

/-- May have called `sending()`. -/
def mayHaveFired : Phase → Bool
  | .inSender | .over | .dead => true
  | _ => false

end Phase

/-- One attempt and what it holds in memory. -/
structure Attempt where
  spec : JobSpec
  job : Nat
  via : Via
  phase : Phase
  /-- `sending()` was called. -/
  marked : Bool := false
  deriving DecidableEq, Repr

/-- Same batch of the same worker. -/
def Attempt.sameBatch (x y : Attempt) : Bool :=
  match x.via, y.via with
  | .worker b _, .worker c _ => b == c
  | _, _ => false

/-- The attempt a worker makes on a row it has claimed. -/
def Attempt.ofRow (batch : Nat) (row : Nat × OutboxItem) : Attempt where
  spec :=
    { bridgeName := row.2.bridgeName, direction := row.2.direction, kind := row.2.kind,
      payload := row.2.payload, sourceKey := row.2.sourceKey.getD "" }
  job := row.1
  via := .worker batch row.2.attempts
  phase := .inHand

/-- What an attempt writes to its row when the sender has ended. -/
def Attempt.settleRow (x : Attempt) (outcome : Outcome) (backoff stamp : Nat) :
    OutboxItem → OutboxItem :=
  match outcome with
  | .delivered remoteId => Outbox.markDone remoteId stamp
  | .raised error =>
      let v := settle x.spec.kind error x.marked
      match x.via with
      | .inline => settleInline v stamp
      | .worker _ attempts => settleWorker attempts error v backoff stamp

/-- Did `settle` call this outcome a retry? -/
def Attempt.settledRetry (x : Attempt) : Outcome → Bool
  | .delivered _ => false
  | .raised error => (settle x.spec.kind error x.marked).verdict == .retry

/-- Did `settle` call this outcome a retry or a deferral?  Only then may the job
go back to the queue. -/
def Attempt.settledAgain (x : Attempt) : Outcome → Bool
  | .delivered _ => false
  | .raised error =>
      let verdict := (settle x.spec.kind error x.marked).verdict
      verdict == .retry || verdict == .defer

/-- An attempt that is not settled as a retry or a deferral leaves its row in a
terminal state. -/
theorem Attempt.settleRow_terminal {x : Attempt} {outcome : Outcome}
    (h : x.settledAgain outcome = false) (backoff stamp : Nat) (r : OutboxItem) :
    (x.settleRow outcome backoff stamp r).state.terminal = true := by
  cases outcome with
  | delivered remoteId => rfl
  | raised error =>
      simp only [settledAgain, Bool.or_eq_false_iff, beq_eq_false_iff_ne] at h
      obtain ⟨hretry, hdefer⟩ := h
      simp only [settleRow]
      cases hv : (settle x.spec.kind error x.marked).verdict with
      | retry => exact absurd hv hretry
      | defer => exact absurd hv hdefer
      | ambiguous => cases x.via <;> simp only [settleInline, settleWorker, hv] <;> rfl
      | permanent =>
          cases x.via with
          | inline => simp only [settleInline, hv]; rfl
          | worker batch attempts =>
              have hne : error ≠ .cancelled := by
                rintro rfl
                rw [settle_cancelled] at hv
                split at hv <;> cases hv
              simp only [settleWorker, hv, if_neg hne, handleFailure, bne_self_eq_false,
                Bool.and_false, Bool.not_false, Bool.true_or, if_true]
              rfl

/-- A failure the worker prices leaves the row's identity alone. -/
theorem handleFailure_sameJob (attempts : Nat) (error : SendError) (v : Settlement)
    (backoff stamp : Nat) (r : OutboxItem) :
    SameJob r (handleFailure attempts error v backoff stamp r) := by
  simp only [handleFailure]
  split
  · exact ⟨rfl, rfl, rfl, rfl⟩
  · exact ⟨rfl, rfl, rfl, rfl⟩

/-- The settlement writes leave a row's identity alone. -/
theorem Attempt.settleRow_sameJob (x : Attempt) (outcome : Outcome) (backoff stamp : Nat)
    (r : OutboxItem) : SameJob r (x.settleRow outcome backoff stamp r) := by
  cases outcome with
  | delivered remoteId => exact ⟨rfl, rfl, rfl, rfl⟩
  | raised error =>
      cases hvia : x.via with
      | inline =>
          simp only [settleRow, hvia, settleInline]
          cases (settle x.spec.kind error x.marked).verdict <;> exact ⟨rfl, rfl, rfl, rfl⟩
      | worker batch attempts =>
          simp only [settleRow, hvia, settleWorker]
          cases (settle x.spec.kind error x.marked).verdict with
          | ambiguous => exact ⟨rfl, rfl, rfl, rfl⟩
          | defer => exact ⟨rfl, rfl, rfl, rfl⟩
          | permanent | retry =>
              by_cases h : error = .cancelled
              · simp only [if_pos h]
                exact ⟨rfl, rfl, rfl, rfl⟩
              · simp only [if_neg h]
                exact handleFailure_sameJob ..

end Telemax
