import Telemax.Lib.Typestate
import Telemax.Storage.MessageMap

/-!
# Telemax.OwnerEcho.Resolve

`resolve_echo` as a script over the statements it runs, and what its text keeps
to: it binds only the row it found at the head with the echo's own fingerprint,
and gives up only on a row it has recorded an error for.
-/

namespace Telemax.OwnerEcho

open Script

def headWaitMs : Nat := 500
def giveUpMs : Nat := 30000

/-- What `on_contact_echo` puts on the queue. -/
structure EchoPayload where
  botId : Int
  bridgeName : String
  accountId : Int
  ownerMessageId : Int
  fingerprint : String
  firstSeenMs : Nat
  deriving DecidableEq, Repr

/-- `_diagnostic`. -/
def diagnostic (bridgeName : String) (expected : Option String) (observed : String)
    (headId : Nat) : String :=
  "owner echo binding on " ++ bridgeName ++ ": head #" ++ toString headId ++ " expected " ++
    (match expected with
      | some e => if e = "" then "none" else e
      | none => "none") ++ ", observed " ++ observed

inductive Op
  | byOwnerAccountMessage (account message : Int)
  | oldestUnboundEcho (bot : Int)
  | bindOwnerMessage (link : Nat) (account message : Int)
  | nowMs
  /-- The row the error is about stands beside its text. -/
  | noteError (bridgeName : String) (head : Nat) (text : String)
  | stopBinding (link : Nat)
  deriving DecidableEq, Repr

abbrev Op.Outcome : Op → Type
  | .byOwnerAccountMessage .. => Option (Nat × MessageLink)
  | .oldestUnboundEcho _ => Option (Nat × MessageLink)
  | .bindOwnerMessage .. => Bool
  | .nowMs => Nat
  | .noteError .. => Unit
  | .stopBinding _ => Unit

inductive Fault
  /-- `DeferDelivery`. -/
  | defer (ms : Nat)
  /-- `UnconfirmedDeliveryError`. -/
  | unconfirmed (text : String)
  deriving DecidableEq, Repr

abbrev Prog := Script Op.Outcome Fault

def ask (op : Op) : Prog op.Outcome := Script.query op

/-- The head never got its echo: say so once, and let the queue move past it. -/
def giveUp (p : EchoPayload) (head : Nat) (expected : Option String) : Prog Unit := do
  ask (.noteError p.bridgeName head (diagnostic p.bridgeName expected p.fingerprint head ++
    " — no echo arrived for it; owner-side id left unbound"))
  ask (.stopBinding head)
  let following : Option (Nat × MessageLink) ← ask (.oldestUnboundEcho p.botId)
  match following with
  | some (id, row) =>
      if row.echoFingerprint = some p.fingerprint then
        let _ : Bool ← ask (.bindOwnerMessage id p.accountId p.ownerMessageId)
  | none => return

/-- The head has the echo's own fingerprint. -/
def bindHead (p : EchoPayload) (head : Nat) : Prog Unit := do
  let bound : Bool ← ask (.bindOwnerMessage head p.accountId p.ownerMessageId)
  if bound = false then
    throw (.unconfirmed (diagnostic p.bridgeName (some p.fingerprint) p.fingerprint head ++
      " — the row was bound to another owner message"))

/-- Bind one owner-side echo, or refuse to. -/
def resolveEcho (p : EchoPayload) : Prog Unit := do
  let known : Option (Nat × MessageLink) ←
    ask (.byOwnerAccountMessage p.accountId p.ownerMessageId)
  if known.isSome then return
  let head : Option (Nat × MessageLink) ← ask (.oldestUnboundEcho p.botId)
  match head with
  | none => return
  | some (id, row) =>
      if row.echoFingerprint = some p.fingerprint then bindHead p id
      else
        let now : Nat ← ask .nowMs
        if now - p.firstSeenMs < giveUpMs then throw (.defer headWaitMs)
        giveUp p id row.echoFingerprint

/-! ## what the text keeps to -/

/-- What an attempt has seen: the row at the head with its fingerprint, and the row it has
recorded an error for. -/
structure Seen where
  found : Option Nat
  noted : Option Nat

/-- The row a look at the head finds with a fingerprint. -/
def matching (fingerprint : String) (head : Option (Nat × MessageLink)) : Option Nat :=
  match head with
  | some (id, row) => if row.echoFingerprint = some fingerprint then some id else none
  | none => none

def discipline (p : EchoPayload) : Protocol Op.Outcome Seen where
  allowed σ
    | .oldestUnboundEcho bot => bot = p.botId
    | .bindOwnerMessage link account message =>
        σ.found = some link ∧ account = p.accountId ∧ message = p.ownerMessageId
    | .stopBinding link => σ.noted = some link
    | _ => True
  next σ
    | .oldestUnboundEcho _, head => { σ with found := matching p.fingerprint head }
    | .noteError _ head _, _ => { σ with noted := some head }
    | _, _ => σ

theorem obeys_bindHead {p : EchoPayload} {σ : Seen} {head : Nat} (h : σ.found = some head) :
    Obeys (discipline p) σ (bindHead p head) fun _ _ => True := by
  refine ⟨⟨h, rfl, rfl⟩, fun bound => ?_⟩
  cases bound <;> trivial

theorem obeys_giveUp {p : EchoPayload} {σ : Seen} {head : Nat} {expected : Option String} :
    Obeys (discipline p) σ (giveUp p head expected) fun _ _ => True := by
  refine ⟨trivial, fun _ => ⟨rfl, fun _ => ⟨rfl, fun following => ?_⟩⟩⟩
  rcases following with _ | ⟨id, row⟩
  · trivial
  · change Obeys _ _ (if row.echoFingerprint = some p.fingerprint then _ else _) _
    split
    · next hfp => exact ⟨⟨by simp [discipline, matching, hfp], rfl, rfl⟩, fun _ => trivial⟩
    · trivial

/-- An attempt binds what it found, and gives up on what it has recorded an error for. -/
theorem obeys_resolveEcho (p : EchoPayload) (σ : Seen) :
    Obeys (discipline p) σ (resolveEcho p) fun _ _ => True := by
  refine ⟨trivial, fun known => ?_⟩
  cases known with
  | some _ => trivial
  | none =>
      refine ⟨rfl, fun head => ?_⟩
      rcases head with _ | ⟨id, row⟩
      · trivial
      · change Obeys _ _ (if row.echoFingerprint = some p.fingerprint then _ else _) _
        split
        · next hfp => exact obeys_bindHead (by simp [discipline, matching, hfp])
        · refine ⟨trivial, fun now => ?_⟩
          change Obeys _ _ (if now - p.firstSeenMs < giveUpMs then _ else _) _
          split
          · trivial
          · exact obeys_giveUp

end Telemax.OwnerEcho
