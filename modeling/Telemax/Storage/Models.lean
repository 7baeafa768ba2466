/-!
# Telemax.Storage.Models

Row types of the outbox, with the words of the code for their fields.  The
states of a job fall into two groups: `pending` and `inflight` are "not
delivered yet", every other state is terminal.
-/

namespace Telemax

/-- Which way a job carries its message. -/
inductive Direction
  | maxToTg
  | tgToMax
  deriving DecidableEq, Repr

/-- Where a delivery job is.  `inflight` means leased: somebody holds the job
until `leaseExpiresAt`. -/
inductive OutboxState
  | pending
  | inflight
  | done
  | failed
  | ambiguous
  | expired
  | archived
  deriving DecidableEq, Repr

namespace OutboxState

/-- "Not delivered yet": what an older job must no longer be for a younger one
to go out. -/
def undelivered : OutboxState → Bool
  | pending | inflight => true
  | done | failed | ambiguous | expired | archived => false

/-- Nothing more comes of a terminal job by itself. -/
def terminal (s : OutboxState) : Bool := !s.undelivered

@[simp] theorem undelivered_pending : pending.undelivered = true := rfl
@[simp] theorem undelivered_inflight : inflight.undelivered = true := rfl
@[simp] theorem terminal_eq_false {s : OutboxState} :
    s.terminal = false ↔ s.undelivered = true := by simp [terminal]
@[simp] theorem terminal_eq_true {s : OutboxState} :
    s.terminal = true ↔ s.undelivered = false := by simp [terminal]

end OutboxState

/-- The kinds of delivery job.  The kind decides which sender runs. -/
inductive JobKind
  | maxToTgText
  | maxToTgMedia
  | maxToTgOwner
  | maxToTgEdit
  | maxToTgDelete
  | tgToMaxText
  | tgToMaxMedia
  | tgToMaxContact
  | tgToMaxEdit
  | tgToMaxDelete
  | tgToMaxReaction
  | ownerEchoBind
  | tgAlbumSweep
  deriving DecidableEq, Repr

/-- One value of a payload.  Nested lists and objects stay the text they are
written as: no function here looks inside one. -/
inductive Value
  | null
  | bool (b : Bool)
  | int (n : Int)
  | str (s : String)
  | json (text : String)
  deriving DecidableEq, Repr

/-- What a job needs to be sent again, as a JSON object. -/
abbrev Payload := List (String × Value)

/-- The cleared payload, `'{}'`. -/
def Payload.cleared : Payload := []

/-- `payload.get(key)`. -/
def Payload.get (p : Payload) (key : String) : Option Value := p.lookup key

/-- `payload.get(key)`, where it is a number. -/
def Payload.int? (p : Payload) (key : String) : Option Int :=
  match p.get key with
  | some (.int n) => some n
  | _ => none

/-- `payload.get(key)`, where it is a text. -/
def Payload.str? (p : Payload) (key : String) : Option String :=
  match p.get key with
  | some (.str text) => some text
  | _ => none

/-- `payload[key] = value`, for a key that is there. -/
def Payload.set (p : Payload) (key : String) (value : Value) : Payload :=
  p.map fun e => if e.1 = key then (key, value) else e

/-- A number that may be missing. -/
def Value.ofInt? : Option Int → Value
  | some n => .int n
  | none => .null

/-- One row of the outbox; the id is the key of the table it lies in. -/
structure OutboxItem where
  bridgeName : String
  direction : Direction
  kind : JobKind
  payload : Payload
  attempts : Nat := 0
  nextAttemptAt : Nat
  state : OutboxState
  lastError : Option String := none
  createdAt : Nat
  updatedAt : Nat
  /-- Identifies the source event, so a replay cannot enqueue a second job. -/
  sourceKey : Option String := none
  leaseExpiresAt : Option Nat := none
  expiresAt : Option Nat := none
  /-- The id the remote side gave back; set on a confirmed delivery only. -/
  remoteMessageId : Option Int := none
  ambiguousAt : Option Nat := none
  /-- Stamped just before the remote call. -/
  sendStartedAt : Option Nat := none
  deriving DecidableEq, Repr

/-- Two versions of one row: what identifies the job never changes. -/
def SameJob (r r' : OutboxItem) : Prop :=
  r'.bridgeName = r.bridgeName ∧ r'.direction = r.direction ∧ r'.kind = r.kind ∧
    r'.sourceKey = r.sourceKey

/-- A job as its caller describes it, before it is a row. -/
structure JobSpec where
  bridgeName : String
  direction : Direction
  kind : JobKind
  payload : Payload
  sourceKey : String
  deriving DecidableEq, Repr

end Telemax
