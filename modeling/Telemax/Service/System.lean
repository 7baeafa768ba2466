import Telemax.Lib.Run
import Telemax.Service.Notifications

/-!
# Telemax.Service.System

The health loop and what it works on.  Once a minute it reads the bridge, decides the incidents one
transaction after another, and hands the alerts that are due to the notification centre, one at a
time.  Incidents of bridges and of provisioning come from elsewhere, at any moment; the process can
end at any await, and another one starts.
-/

namespace Telemax.Service

/-- What an earlier version left: its notifications, and the chat.  It knew no push. -/
structure Old where
  notifications : Dict String Nat
  chat : Table String
  noPush : notifications.get? pushKey = none
  quiet : ∀ message, chat.get? message ≠ some attentionText

/-- `ALERT_COOLDOWN_MS`. -/
def alertCooldownMs : Int := 6 * 60 * 60 * 1000

/-- `max_attempts` of the dispatcher. -/
def maxAttempts : Nat := 8

/-- `backoff_ms` of the dispatcher. -/
def backoffMs : Int := 60000

/-- The await the health loop stands at. -/
inductive Loop
  | sleeping
  /-- The next check is decided.  `done` and `skipped` are for the statements only: the checks
  whose transaction is through, and those that failed or were not reached. -/
  | evaluating (snapshot : Snapshot) (done skipped left : List (String × Verdict))
  /-- An alert is taken up, before `publish`. -/
  | draining (left : List (Nat × Alert))
  | publishing (alert : Nat × Alert) (left : List (Nat × Alert)) (stage : Stage)
  /-- What became of the alert is written down. -/
  | marking (alert : Nat × Alert) (left : List (Nat × Alert)) (delivered : Bool)

structure State where
  alerts : Alerts := .empty
  canarySuccesses : Nat := 0
  loop : Loop := .sleeping
  guardian : Guardian
  /-- For the statements only, as what follows: the facts the publication at work has read. -/
  read : Option Facts := none
  /-- Whether the last publication that read the facts and ended well found them critical. -/
  found : Option Bool := none
  /-- The deliveries whose mark went through, and whether they had gone well. -/
  marks : List (Nat × Bool) := []

inductive Event
  /-- The loop wakes up and reads the bridge, or cannot. -/
  | wake (readings : Option Readings) (canary : Bool)
  /-- A screen reads it. -/
  | look (canary : Bool)
  /-- A transaction of the loop is executed, or fails. -/
  | exec (stamp : Int) (ok : Bool)
  /-- The evaluation is over; the guardian is there or not. -/
  | drain (guardian : Bool) (stamp : Int) (ok : Bool)
  | publish (guardian : Bool)
  | asked (maxReady : Bool) (readings : Option (Readings × Bool))
  | unread
  | edited (answer : Answer) (written : Bool)
  | sent (answer : Answer) (written : Bool)
  | bridgeNotStarted (name text : String) (stamp : Int)
  | bridgeStarted (name : String) (stamp : Int)
  | provisioningStuck (chat : Int) (text : String) (stamp : Int)
  /-- The owner deletes a message. -/
  | deleted (message : Nat)
  | restart

def Alerts.decide (a : Alerts) (key : String) (verdict : Verdict) (stamp : Int) : Alerts :=
  match verdict with
  | .raise text => (a.openIncident key text alertCooldownMs stamp).1
  | .clear text => (a.resolveIncident key (some text) stamp).1
  | .leave => a

/-- `mark_sent`, `mark_retry` or `mark_failed`, by the attempts the row was claimed with. -/
def Alerts.mark (a : Alerts) (alert : Nat × Alert) (delivered : Bool) (stamp : Int) : Alerts :=
  let attempts := alert.2.attempts + 1
  if delivered then a.markSent alert.1
  else if maxAttempts ≤ attempts then a.markFailed alert.1
  else a.markRetry alert.1 (backoffMs * attempts) stamp

def bridgeNotStartedKey (name : String) : String := s!"bridge-not-started:{name}"

def provisioningStuckKey (chat : Int) : String := s!"provisioning-stuck:{chat}"

namespace State

/-- `snapshot`: the canary counts, and its count decides what is said of the writes. -/
def snapshot (s : State) (readings : Readings) (canary : Bool) : Snapshot × State :=
  let successes := countCanary s.canarySuccesses canary
  ({ readings with databaseWrite := databaseWrite successes canary },
    { s with canarySuccesses := successes })

/-- `attention_facts`; the reading may fail. -/
def attention (s : State) (maxReady : Bool) (readings : Option (Readings × Bool)) :
    Facts × State :=
  match readings with
  | some (readings, canary) =>
      let read := s.snapshot readings canary
      (attentionFacts maxReady (some read.1), read.2)
  | none => (attentionFacts maxReady none, s)

/-- What a step of `publish` comes to. -/
def after (s : State) (alert : Nat × Alert) (left : List (Nat × Alert)) :
    Guardian.Outcome → State
  | .goesOn guardian stage => { s with guardian, loop := .publishing alert left stage }
  | .returns guardian =>
      { s with
        guardian, loop := .marking alert left true, found := (s.read.map critical).or s.found }
  | .raises guardian => { s with guardian, loop := .marking alert left false }

section

variable {s : State} {maxReady : Bool} {readings : Option (Readings × Bool)}
  {alert : Nat × Alert} {left : List (Nat × Alert)} {outcome : Guardian.Outcome}

@[simp] theorem alerts_attention : (s.attention maxReady readings).2.alerts = s.alerts := by
  cases readings <;> rfl

@[simp] theorem found_attention : (s.attention maxReady readings).2.found = s.found := by
  cases readings <;> rfl

@[simp] theorem marks_attention : (s.attention maxReady readings).2.marks = s.marks := by
  cases readings <;> rfl

@[simp] theorem alerts_after : (s.after alert left outcome).alerts = s.alerts := by
  cases outcome <;> rfl

@[simp] theorem marks_after : (s.after alert left outcome).marks = s.marks := by
  cases outcome <;> rfl

end

end State

def step (s : State) : Event → Option State
  | .wake readings canary =>
      match s.loop, readings with
      | .sleeping, some readings =>
          let read := s.snapshot readings canary
          some { read.2 with loop := .evaluating read.1 [] [] read.1.checks }
      | .sleeping, none => some s
      | _, _ => none
  | .look canary => some { s with canarySuccesses := countCanary s.canarySuccesses canary }
  | .exec stamp ok =>
      match s.loop with
      | .evaluating snapshot done skipped (check :: left) =>
          if ok ∨ check.2 = .leave then
            some { s with
              alerts := s.alerts.decide check.1 check.2 stamp
              loop := .evaluating snapshot (check :: done) skipped left }
          else if guarded check.1 then
            some { s with loop := .evaluating snapshot done (check :: skipped) left }
          else some { s with loop := .evaluating snapshot done (check :: left ++ skipped) [] }
      | .marking alert left delivered =>
          if ok then
            some { s with
              alerts := s.alerts.mark alert delivered stamp
              loop := .draining left
              marks := (alert.1, delivered) :: s.marks }
          else some { s with loop := .sleeping }
      | _ => none
  | .drain guardian stamp ok =>
      match s.loop with
      | .evaluating _ _ _ [] =>
          some { s with
            loop := if guardian ∧ ok then .draining (s.alerts.claimDue stamp) else .sleeping }
      | _ => none
  | .publish guardian =>
      match s.loop with
      | .draining (alert :: left) =>
          some (if guardian then { s with read := none }.after alert left s.guardian.begin
            else { s with loop := .marking alert left false })
      | .draining [] => some { s with loop := .sleeping }
      | _ => none
  | .asked maxReady readings =>
      match s.loop with
      | .publishing alert left stage =>
          let read := s.attention maxReady readings
          (s.guardian.asked (some read.1) stage).map
            ({ read.2 with read := some read.1 }.after alert left)
      | _ => none
  | .unread =>
      match s.loop with
      | .publishing alert left stage => (s.guardian.asked none stage).map (s.after alert left)
      | _ => none
  | .edited answer written =>
      match s.loop with
      | .publishing alert left stage =>
          (s.guardian.edited answer written stage).map (s.after alert left)
      | _ => none
  | .sent answer written =>
      match s.loop with
      | .publishing alert left stage =>
          (s.guardian.sent answer written stage).map (s.after alert left)
      | _ => none
  | .bridgeNotStarted name text stamp =>
      some { s with
        alerts := s.alerts.decide (bridgeNotStartedKey name) (.raise text) stamp }
  | .bridgeStarted name stamp =>
      some { s with
        alerts := s.alerts.decide (bridgeNotStartedKey name)
          (.clear s!"Мост «{name}» снова работает.") stamp }
  | .provisioningStuck chat text stamp =>
      some { s with
        alerts := s.alerts.decide (provisioningStuckKey chat) (.raise text) stamp }
  | .deleted message =>
      some { s with
        guardian := { s.guardian with chat := s.guardian.chat.delete fun i _ => i == message } }
  | .restart =>
      some { s with
        canarySuccesses := 0
        loop := .sleeping
        guardian := { s.guardian with retired := false } }

def system (old : Old) : Run.Sys State Event where
  start := { guardian := { notifications := old.notifications, chat := old.chat } }
  step := step

/-! ## a run -/

/-- No earlier version was there. -/
def fresh : Old where
  notifications := .empty
  chat := .empty
  noPush := rfl
  quiet _ := nofun

/-- A whole evaluation. -/
def evaluation (readings : Readings) (stamp : Int) : List Event :=
  .wake (some readings) true :: List.replicate 10 (.exec stamp true)

/-- What is read while MAX is gone. -/
def gone : Readings where
  maxConnected := false
  maxOfflineMs := some 700000

/-- MAX is gone, and the owner is told. -/
def outage : List Event :=
  evaluation gone 5 ++ [.drain true 6 true, .publish true, .asked false (some (gone, true)),
    .sent .served true, .exec 7 true, .publish true]

/-- MAX is back. -/
def recovery : List Event :=
  evaluation {} 8 ++ [.drain true 9 true, .publish true, .asked true (some ({}, true)),
    .edited .served true, .exec 10 true, .publish true]

end Telemax.Service
