import Telemax.Service.Health

/-!
# Telemax.Service.Notifications

`NotificationCentre`: handed one alert at a time, it decides from the state as it is now whether
to interrupt the owner.  A call of `publish` goes from await to await; what it remembers is in the
guardian's state file, and what it has said in the guardian's chat.
-/

namespace Telemax.Service

/-- What `critical` reads of `AttentionFacts`. -/
structure Facts where
  databaseHealthy : Bool := true
  maxConnected : Bool := false
  maxOfflineMs : Option Int := none
  deriving DecidableEq, Repr

/-- `attention_facts`. -/
def attentionFacts (maxReady : Bool) (snapshot : Option Snapshot) : Facts :=
  match snapshot with
  | some s =>
      { databaseHealthy := s.databaseWrite.healthy
        maxConnected := maxReady
        maxOfflineMs := s.maxOfflineMs }
  | none => { maxConnected := maxReady }

/-- `SUSTAINED_OUTAGE_MS`. -/
def sustainedOutageMs : Int := maxOfflineAlertSeconds * 1000

/-- `critical`: may the guardian interrupt the owner right now? -/
def critical (facts : Facts) : Bool :=
  !facts.databaseHealthy ||
    !facts.maxConnected && sustainedOutageMs ≤ facts.maxOfflineMs.getD 0

def attentionText : String :=
  "⚠️ Telemax требует внимания\n\nЕсть проблемы, требующие вашего решения."

def resolvedText : String := "✅ Telemax снова работает"

def retiredText : String :=
  "ℹ️ Это сообщение больше не обновляется.\n\nСостояние Telemax — в меню бота."

/-- `PUSH_KEY`. -/
def pushKey : String := "attention"

/-- What Telegram makes of a call. -/
inductive Answer
  | served
  | refused
  /-- It was carried out, and the answer did not arrive. -/
  | lost
  deriving DecidableEq, Repr

/-- The await a call of `publish` stands at. -/
inductive Stage
  /-- `_retire_legacy` edits the first of these; the rest of the map is kept. -/
  | retiring (left : List (String × Nat)) (remembered : Dict String Nat)
  /-- The facts are read. -/
  | asking
  /-- The push is edited. -/
  | editing (message : Nat) (facts : Facts)
  | sending (facts : Facts)
  /-- The push goes green. -/
  | resolving (message : Nat)

/-- The guardian as the centre finds it. -/
structure Guardian where
  /-- `notifications` of the state file. -/
  notifications : Dict String Nat
  /-- The guardian's messages to the owner. -/
  chat : Table String
  /-- `_retired`, of this process. -/
  retired : Bool := false

namespace Guardian

def push? (g : Guardian) : Option Nat := g.notifications.get? pushKey

/-- The entries of the previous design. -/
def legacy (g : Guardian) : List (String × Nat) :=
  g.notifications.entries.filter fun entry => entry.1 ≠ pushKey

/-- `edit`: a message that is not there any more cannot be edited. -/
def edit (g : Guardian) (message : Nat) (text : String) (answer : Answer) : Guardian × Bool :=
  if (g.chat.get? message).isSome ∧ answer ≠ .refused then
    ({ g with chat := g.chat.modify message fun _ => text }, answer = .served)
  else (g, false)

/-- How a step of `publish` ends: it goes on to another await, returns or raises. -/
inductive Outcome
  | goesOn (g : Guardian) (stage : Stage)
  | returns (g : Guardian)
  | raises (g : Guardian)

/-- `publish`, up to its first await. -/
def begin (g : Guardian) : Outcome :=
  let g' := { g with retired := true }
  if g.retired ∨ g.legacy = [] then .goesOn g' .asking
  else .goesOn g' (.retiring g.legacy g.notifications)

/-- The await of an edit; `written` is what becomes of the state file. -/
def edited (g : Guardian) (answer : Answer) (written : Bool) : Stage → Option Outcome
  | .retiring ((key, message) :: left) remembered =>
      let g' := (g.edit message retiredText answer).1
      let remembered := remembered.erase key
      if left = [] then
        some (if written then .goesOn { g' with notifications := remembered } .asking
          else .raises g')
      else some (.goesOn g' (.retiring left remembered))
  | .editing message facts =>
      match g.edit message attentionText answer with
      | (g', true) => some (.returns g')
      | (g', false) => some (.goesOn g' (.sending facts))
  | .resolving message =>
      let g' := (g.edit message resolvedText answer).1
      some (if written then
          .returns { g' with notifications := g'.notifications.erase pushKey }
        else .raises g')
  | _ => none

/-- The await of the facts; `none` when they could not be read. -/
def asked (g : Guardian) (facts : Option Facts) : Stage → Option Outcome
  | .asking =>
      match facts with
      | none => some (.returns g)
      | some facts =>
          match g.push? with
          | some message =>
              some (.goesOn g (if critical facts then .editing message facts else .resolving message))
          | none =>
              some (if critical facts then .goesOn g (.sending facts) else .returns g)
  | _ => none

/-- The await of a send. -/
def sent (g : Guardian) (answer : Answer) (written : Bool) : Stage → Option Outcome
  | .sending _ =>
      let posted := { g with chat := g.chat.insert attentionText }
      match answer with
      | .refused => some (.raises g)
      | .lost => some (.raises posted)
      | .served =>
          some (if written then
              .returns { posted with
                notifications := posted.notifications.insert pushKey g.chat.next }
            else .raises posted)
  | _ => none

end Guardian

end Telemax.Service
