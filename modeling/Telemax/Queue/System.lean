import Telemax.Lib.Run
import Telemax.Queue.Attempt
import Mathlib.Logic.Function.Basic

/-!
# Telemax.Queue.System

The outbox and everything that works on it, as one transition system:

* inline submissions (`submit`, `submit_in_order`, `submit_in_kind_order`, each
  followed by `attempt`) and the workers of the bridges (`claim_due` followed by
  `_attempt`, one item of the batch after the other);
* the sweeper task (`reclaim_expired_leases`, then `expire_overdue`), the
  start-up recovery (`requeue_inflight`), the owner's decisions, and the updates
  an owner edit or delete makes to a send that has not gone out yet.

One event is what one task does between two awaits: one transaction or statement
of `Outbox`, together with the changes in memory up to the next await.  A method
that selects and then updates row by row is one event for the select and one per
update.  Any event may come after any other, the clock may be set to anything,
an attempt may die at any await, and a crash ends them all.

`latest` and `log` are for the statements only; no step reads them.  `latest`
names the attempt that made the last claim of a job, `log` lists, newest first,
what the attempts did.
-/

namespace Telemax

/-- What an attempt did that the statements speak of. -/
inductive Mark
  /-- The attempt entered the sender. -/
  | entered (job attempt : Nat) (bridge : String) (direction : Direction)
  /-- The attempt's `sending()` was written down. -/
  | fired (job attempt : Nat) (bridge : String) (direction : Direction)
  /-- The attempt was settled as a retry. -/
  | retried (job attempt : Nat)
  deriving DecidableEq, Repr

/-- The sweeper task: where it is in its two passes. -/
inductive Sweeper
  | idle
  /-- In `reclaim_expired_leases`, with the rows it has selected and not written. -/
  | reclaiming (stamp : Nat) (todo : List (Nat × Bool))
  /-- In `expire_overdue`. -/
  | expiring (todo : List Nat)
  deriving DecidableEq, Repr

/-- The process: not running, in `requeue_inflight`, or up. -/
inductive Mode
  | down
  | requeueing (todo : List (Nat × Bool))
  | up
  deriving DecidableEq, Repr

namespace Queue

structure State where
  now : Nat := 0
  mode : Mode := .down
  outbox : Outbox := .empty
  attempts : Table Attempt := .empty
  latest : Nat → Option Nat := fun _ => none
  sweeper : Sweeper := .idle
  /-- The owner's decisions that have read their row and not written it yet. -/
  decisions : List (Nat × Outbox.Decision × OutboxItem) := []
  log : List Mark := []

inductive Event
  /-- The clock shows this from now on. -/
  | clock (now : Nat)
  /-- A submission begins; with a barrier, its job is written down. -/
  | submit (spec : JobSpec) (barrier : Barrier)
  /-- `enqueue_batch`. -/
  | enqueueBatch (specs : List JobSpec)
  /-- Look for older jobs. -/
  | check (attempt : Nat)
  /-- `claim_for_attempt`. -/
  | claim (attempt : Nat)
  /-- `claim_due` of the bridge's worker. -/
  | drain (bridge : String) (limit : Nat)
  /-- The worker's `defer` behind an older job. -/
  | wait (attempt : Nat)
  /-- Call the sender. -/
  | enter (attempt : Nat)
  /-- `sending()`, the mark written. -/
  | sending (attempt : Nat)
  /-- `sending()`, interrupted before the mark was written. -/
  | sendingLost (attempt : Nat)
  /-- The sender has ended, and the outcome is written. -/
  | settle (attempt : Nat) (outcome : Outcome) (backoff : Nat)
  /-- The task of this attempt is gone. -/
  | die (attempt : Nat)
  | reclaimSelect
  | reclaimWrite
  | expireSelect
  | expireWrite
  | sweepStop
  /-- The owner decides about a job: the read, and later the write. -/
  | decide (job : Nat) (decision : Outbox.Decision)
  | decideWrite (index : Nat)
  | cancelPending (key reason : String)
  | replacePendingPayload (key : String) (payload : Payload)
  | replaceFailedPayload (key : String) (payload : Payload)
  | crash
  | requeueSelect
  | requeueWrite
  | started
  deriving DecidableEq, Repr

/-! ## parts of a step -/

/-- A source key names one event of one bridge: whoever submits under a key that
has a row describes the job of that row. -/
def State.fits (s : State) (spec : JobSpec) : Bool :=
  match s.outbox.bySourceKey spec.sourceKey with
  | some (_, r) =>
      r.bridgeName == spec.bridgeName && r.direction == spec.direction &&
        isCreating r.kind == isCreating spec.kind
  | none => true

/-- Change one attempt. -/
def State.setAttempt (s : State) (a : Nat) (f : Attempt → Attempt) : State :=
  { s with attempts := s.attempts.modify a f }

/-- Move one attempt to another phase. -/
def State.setPhase (s : State) (a : Nat) (phase : Phase) : State :=
  s.setAttempt a fun x => { x with phase }

/-- Write one row. -/
def State.writeRow (s : State) (job : Nat) (f : OutboxItem → OutboxItem) : State :=
  { s with outbox := s.outbox.modify job f }

/-- Note what an attempt did. -/
def State.note (s : State) (m : Mark) : State := { s with log := m :: s.log }

/-- Is something older in the way of a submission? -/
def State.blocked (s : State) (x : Attempt) : Barrier → Bool
  | .none => false
  | .direction => s.outbox.olderUndelivered x.spec.bridgeName x.spec.direction x.job
  | .kind => s.outbox.olderUndeliveredKind x.spec.bridgeName x.spec.direction x.spec.kind x.job

/-- Is the worker of this bridge still at an attempt? -/
def State.workerBusy (s : State) (bridge : String) : Bool :=
  s.attempts.holdsOf fun _ x =>
    x.via != .inline && x.spec.bridgeName == bridge && x.phase.running

/-- Has the worker an item of this batch before attempt `a` still at hand? -/
def State.batchAhead (s : State) (a : Nat) (x : Attempt) : Bool :=
  s.attempts.holdsOf fun b y => decide (b < a) && x.sameBatch y && y.phase != .over

/-- A submission begins. -/
def State.submit (s : State) (spec : JobSpec) : Barrier → State
  | .none =>
      { s with attempts := s.attempts.insert
                 { spec, job := 0, via := .inline, phase := .unblocked } }
  | barrier =>
      let (outbox, id) := s.outbox.enqueue spec s.now
      { s with outbox, attempts := s.attempts.insert
                 { spec, job := id, via := .inline, phase := .enqueued barrier } }

/-- `claim_for_attempt` of a submission. -/
def State.claim (s : State) (a : Nat) (x : Attempt) : State :=
  match s.outbox.claimForAttempt x.spec s.now with
  | (outbox, id, true) =>
      { s with outbox, attempts := s.attempts.modify a fun x =>
                 { x with job := id, phase := .cleared },
               latest := Function.update s.latest id (some a) }
  | (_, _, false) => s.setPhase a .over

/-- Take one claimed row in hand. -/
def State.takeUp (batch : Nat) (s : State) (row : Nat × OutboxItem) : State :=
  { s with attempts := s.attempts.insert (.ofRow batch row),
           latest := Function.update s.latest row.1 (some s.attempts.next) }

/-- `claim_due`, and the batch in the worker's hands. -/
def State.drain (s : State) (bridge : String) (limit : Nat) : State :=
  let (outbox, taken) := s.outbox.claimDue bridge limit s.now
  taken.foldl (State.takeUp s.attempts.next) { s with outbox }

/-- The look at older jobs, inline or in the worker. -/
def State.check (s : State) (a : Nat) (x : Attempt) : Option State :=
  match x.phase with
  | .enqueued barrier => some (s.setPhase a (if s.blocked x barrier then .over else .unblocked))
  | .inHand =>
      if s.batchAhead a x then none
      else some (s.setPhase a (if s.blocked x .direction then .waiting else .cleared))
  | _ => none

/-- The sender has ended. -/
def State.settle (s : State) (a : Nat) (x : Attempt) (outcome : Outcome) (backoff : Nat) :
    State :=
  let t := (s.writeRow x.job (x.settleRow outcome backoff s.now)).setPhase a .over
  if x.settledRetry outcome then t.note (.retried x.job a) else t

/-- A task is gone: the attempt, and with a worker's attempt its whole batch. -/
def State.die (s : State) (a : Nat) (x : Attempt) : State :=
  { s with attempts := s.attempts.update
             (fun b y => y.phase.running && (b == a || x.sameBatch y))
             fun y => { y with phase := .dead } }

/-- The process ends. -/
def State.crash (s : State) : State :=
  { s with mode := .down, sweeper := .idle, decisions := [],
           attempts := s.attempts.update (fun _ y => y.phase.running)
             fun y => { y with phase := .dead } }

/-! ## the step function -/

/-- A step of an attempt that is in the given phase. -/
def State.ofPhase (s : State) (a : Nat) (phase : Phase) (f : Attempt → Option State) :
    Option State :=
  match s.attempts.get? a with
  | some x => if x.phase = phase then f x else none
  | none => none

/-- What a task of the running process does next. -/
def stepUp (s : State) : Event → Option State
  | .submit spec barrier => if s.fits spec then some (s.submit spec barrier) else none
  | .enqueueBatch specs =>
      if specs.all s.fits then some { s with outbox := s.outbox.enqueueBatch specs s.now }
      else none
  | .check a => (s.attempts.get? a).bind (s.check a)
  | .claim a =>
      s.ofPhase a .unblocked fun x => if s.fits x.spec then some (s.claim a x) else none
  | .drain bridge limit => if s.workerBusy bridge then none else some (s.drain bridge limit)
  | .wait a =>
      s.ofPhase a .waiting fun x =>
        some ((s.writeRow x.job (Outbox.defer orderWaitMs s.now)).setPhase a .over)
  | .enter a =>
      s.ofPhase a .cleared fun x =>
        some ((s.setPhase a .inSender).note
          (.entered x.job a x.spec.bridgeName x.spec.direction))
  | .sending a =>
      s.ofPhase a .inSender fun x =>
        some (((s.writeRow x.job (Outbox.markSending s.now)).setAttempt a
            fun x => { x with marked := true }).note
          (.fired x.job a x.spec.bridgeName x.spec.direction))
  | .sendingLost a =>
      s.ofPhase a .inSender fun _ => some (s.setAttempt a fun x => { x with marked := true })
  | .settle a outcome backoff =>
      s.ofPhase a .inSender fun x =>
        if outcome.possible x.spec.kind then some (s.settle a x outcome backoff) else none
  | .die a => (s.attempts.get? a).map (s.die a)
  | .reclaimSelect =>
      if s.sweeper = .idle then
        some { s with sweeper := .reclaiming s.now (s.outbox.expiredLeases s.now) }
      else none
  | .reclaimWrite =>
      match s.sweeper with
      | .reclaiming stamp ((i, wasStarted) :: rest) =>
          some { s.writeRow i (Outbox.recover wasStarted stamp s.now) with
                 sweeper := .reclaiming stamp rest }
      | _ => none
  | .expireSelect =>
      match s.sweeper with
      | .reclaiming _ [] => some { s with sweeper := .expiring (s.outbox.overdueRows s.now) }
      | _ => none
  | .expireWrite =>
      match s.sweeper with
      | .expiring (i :: rest) =>
          some { s.writeRow i (Outbox.markExpired s.now) with sweeper := .expiring rest }
      | _ => none
  | .sweepStop => some { s with sweeper := .idle }
  | .decide job decision =>
      match s.outbox.get? job with
      | some r =>
          if decision.allows r then
            some { s with decisions := s.decisions ++ [(job, decision, r)] }
          else none
      | none => none
  | .decideWrite index =>
      match s.decisions[index]? with
      | some (job, decision, read) =>
          some { s.writeRow job fun r => decision.write read s.now r with
                 decisions := s.decisions.eraseIdx index }
      | none => none
  | .cancelPending key reason =>
      some { s with outbox := s.outbox.cancelPending key reason s.now }
  | .replacePendingPayload key payload =>
      some { s with outbox := s.outbox.replacePendingPayload key payload s.now }
  | .replaceFailedPayload key payload =>
      some { s with outbox := s.outbox.replaceFailedPayload key payload s.now }
  | _ => none

/-- What the process does while it starts: `requeue_inflight`, and nothing else. -/
def stepStart (s : State) : Event → Option State
  | .requeueSelect =>
      if s.mode = .down then some { s with mode := .requeueing s.outbox.inflightRows } else none
  | .requeueWrite =>
      match s.mode with
      | .requeueing ((i, wasStarted) :: rest) =>
          some { s.writeRow i (Outbox.recover wasStarted s.now s.now) with
                 mode := .requeueing rest }
      | _ => none
  | .started => if s.mode = .requeueing [] then some { s with mode := .up } else none
  | _ => none

/-- One event. -/
def step (s : State) (e : Event) : Option State :=
  match e with
  | .clock now => some { s with now }
  | .crash => some s.crash
  | e => if s.mode = .up then stepUp s e else stepStart s e

/-- The whole system, from an empty database. -/
def system : Run.Sys State Event where
  start := {}
  step := step

/-- A text from MAX, as the router submits it: the job of the runs in the modules that follow. -/
def someText : JobSpec where
  bridgeName := "bridge"
  direction := .maxToTg
  kind := .maxToTgText
  payload := [("text", .str "hello")]
  sourceKey := "max:1:1"

end Queue

end Telemax
