import Telemax.Lib.Dict
import Telemax.Lib.Table

/-!
# Telemax.Service.Alerts

The alerts the owner must see, and the incidents that stop them repeating.  `alert_incidents` is
memory, one row for each key; `alert_outbox` is a queue whose rows are never removed, so that the
rows of a key are also the history of what was said about it.
-/

namespace Telemax.Service

inductive Severity
  | warning
  | recovery
  deriving DecidableEq, Repr

inductive AlertState
  | pending
  | sent
  | failed
  deriving DecidableEq, Repr

/-- A row of `alert_incidents`. -/
structure Incident where
  openedAt : Int
  lastAlertAt : Int
  resolvedAt : Option Int := none
  deriving DecidableEq, Repr

/-- A row of `alert_outbox`. -/
structure Alert where
  incidentKey : String
  severity : Severity
  text : String
  state : AlertState := .pending
  attempts : Nat := 0
  nextAttemptAt : Int
  createdAt : Int
  deriving DecidableEq, Repr

/-- What an alert says about a key, and when. -/
def Alert.about (r : Alert) (key : String) : Option (Severity × Int) :=
  if r.incidentKey = key then some (r.severity, r.createdAt) else none

structure Alerts where
  incidents : Dict String Incident
  outbox : Table Alert

namespace Alerts

def empty : Alerts := ⟨.empty, .empty⟩

/-- `INSERT INTO alert_outbox`. -/
def queue (a : Alerts) (key : String) (severity : Severity) (text : String) (stamp : Int) :
    Alerts :=
  { a with
    outbox := a.outbox.insert
      { incidentKey := key, severity, text, nextAttemptAt := stamp, createdAt := stamp } }

/-- `open_incident`: the tables after it, and the alert queued. -/
def openIncident (a : Alerts) (key text : String) (cooldown stamp : Int) :
    Alerts × Option Nat :=
  match a.incidents.get? key with
  | some ⟨openedAt, lastAlertAt, none⟩ =>
      if cooldown ≤ 0 ∨ stamp - lastAlertAt < cooldown then (a, none)
      else
        ({ a with
            incidents := a.incidents.insert key { openedAt, lastAlertAt := stamp }
           }.queue key .warning text stamp, some a.outbox.next)
  | _ =>
      ({ a with
          incidents := a.incidents.insert key { openedAt := stamp, lastAlertAt := stamp }
         }.queue key .warning text stamp, some a.outbox.next)

/-- `resolve_incident`. -/
def resolveIncident (a : Alerts) (key : String) (text : Option String) (stamp : Int) :
    Alerts × Option Nat :=
  match a.incidents.get? key with
  | some ⟨openedAt, lastAlertAt, none⟩ =>
      let closed : Alerts :=
        { a with
          incidents := a.incidents.insert key { openedAt, lastAlertAt, resolvedAt := some stamp } }
      match text with
      | some text => (closed.queue key .recovery text stamp, some a.outbox.next)
      | none => (closed, none)
  | _ => (a, none)

/-- `is_open`. -/
def isOpen (a : Alerts) (key : String) : Bool :=
  (a.incidents.get? key).any fun i => i.resolvedAt.isNone

/-- `claim_due`, oldest first. -/
def claimDue (a : Alerts) (stamp : Int) (limit : Nat := 5) : List (Nat × Alert) :=
  (a.outbox.select fun _ r => r.state = .pending ∧ r.nextAttemptAt ≤ stamp).take limit

def markSent (a : Alerts) (id : Nat) : Alerts :=
  { a with outbox := a.outbox.modify id fun r => { r with state := .sent } }

def markRetry (a : Alerts) (id : Nat) (delay stamp : Int) : Alerts :=
  { a with
    outbox := a.outbox.modify id fun r =>
      { r with attempts := r.attempts + 1, nextAttemptAt := stamp + delay } }

def markFailed (a : Alerts) (id : Nat) : Alerts :=
  { a with
    outbox := a.outbox.modify id fun r =>
      { r with state := .failed, attempts := r.attempts + 1 } }

/-! ## what has been said about a key -/

/-- The alerts of a key in the order they were queued, each with its moment. -/
def said (a : Alerts) (key : String) : List (Severity × Int) :=
  a.outbox.rows.filterMap fun r => r.2.about key

section

variable {a : Alerts} {key text : String} {severity : Severity} {stamp : Int} {other : String}

theorem said_queue : (a.queue key severity text stamp).said other =
    a.said other ++ if key = other then [(severity, stamp)] else [] := by
  simp only [said, queue, Table.insert, List.filterMap_append]
  by_cases h : key = other <;> simp [h, Alert.about]

/-- A write that leaves what every alert says as it is. -/
theorem said_modify {id : Nat} {f : Alert → Alert} (hf : ∀ r, (f r).about key = r.about key) :
    { a with outbox := a.outbox.modify id f }.said key = a.said key := by
  simp only [said, Table.modify, Table.update, List.filterMap_map]
  apply List.filterMap_congr
  intro r _
  show (if r.1 == id then f r.2 else r.2).about key = r.2.about key
  split
  · exact hf r.2
  · rfl

@[simp] theorem said_markSent {id : Nat} : (a.markSent id).said key = a.said key :=
  said_modify fun _ => rfl

@[simp] theorem said_markRetry {id : Nat} {delay : Int} :
    (a.markRetry id delay stamp).said key = a.said key :=
  said_modify fun _ => rfl

@[simp] theorem said_markFailed {id : Nat} : (a.markFailed id).said key = a.said key :=
  said_modify fun _ => rfl

end

end Alerts

end Telemax.Service
