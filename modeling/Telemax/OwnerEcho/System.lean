import Telemax.Lib.Run
import Telemax.OwnerEcho.Resolve

/-!
# Telemax.OwnerEcho.System

What the contact bots deliver, what the owner's session sees of it, and the jobs
that join the two.  Telegram shows the owner what a bot sends in the order of the
sends, under ids that grow; its echoes reach the bridge late, more than once, or
not at all.

The queue is taken at its loosest: an attempt of any job may start at any time
and as often as it likes, attempts go on statement by statement in any order, and
one may stop anywhere.  The inline first attempt, a deferral, a worker's retry,
an expired lease and a crash are all of this kind.
-/

namespace Telemax.OwnerEcho

/-- A message of a contact bot in the owner's chat.  `row` is the mapping row it delivers; a
status line or a notice has none. -/
structure Shown where
  row : Option Nat
  bot : Int
  owner : Int
  /-- What the owner's session makes of its content. -/
  fingerprint : String
  deriving DecidableEq, Repr

/-- A binding made, with the older rows of its bot that waited for an id when it was made. -/
structure Bound where
  row : Nat
  bot : Int
  owner : Int
  older : List Nat
  deriving DecidableEq, Repr

structure State where
  clock : Nat
  map : MessageMap
  /-- The fingerprint each row was claimed with. -/
  recorded : Nat → Option String
  shown : List Shown
  jobs : List EchoPayload
  /-- Attempts under way, each with its job. -/
  attempts : List (EchoPayload × Prog Unit)
  /-- The rows an error has been recorded for. -/
  errors : List Nat
  bindings : List Bound

inductive Event
  | clock (now : Nat)
  /-- `claim_from_max`. -/
  | claim (bridge : String) (chat message bot telegramChat : Int) (fingerprint : Option String)
  /-- A claim is given back, its message not having been sent. -/
  | forget (link : Nat)
  /-- Telegram shows the owner a message of a bot. -/
  | shown (x : Shown)
  /-- `on_contact_echo`: the session sees one of them, for the first time or again. -/
  | echo (n : Nat)
  /-- An attempt of a job starts, on the router's side or on the worker's. -/
  | attempt (job : Nat)
  /-- An attempt goes on by one statement. -/
  | step (attempt : Nat)
  /-- An attempt stops where it is. -/
  | stops (attempt : Nat)
  deriving DecidableEq, Repr

namespace State

def start : State where
  clock := 0
  map := .empty
  recorded := fun _ => none
  shown := []
  jobs := []
  attempts := []
  errors := []
  bindings := []

/-- A row of the bot that was claimed with a fingerprint and carries no owner's id. -/
def waits (s : State) (bot : Int) (j : Nat) (r : MessageLink) : Bool :=
  r.telegramBotId == bot && r.direction == .maxToTg && r.telegramOwnerMessageId.isNone &&
    (s.recorded j).isSome

/-- The older rows of the bot that wait for an owner's id. -/
def olderWaiting (s : State) (bot : Int) (link : Nat) : List Nat :=
  (s.map.select fun j r => decide (j < link) && s.waits bot j r).map (·.1)

/-- `bind_owner_message`, and whether the row carries this identity now. -/
def bind (s : State) (link : Nat) (account message : Int) : Bool × State :=
  match s.map.get? link with
  | some r =>
      if MessageMap.bindable link account message link r then
        (true, { s with
          map := s.map.bindOwnerMessage link account message
          bindings := s.bindings ++
            [⟨link, r.telegramBotId, message, s.olderWaiting r.telegramBotId link⟩] })
      else (false, s)
  | none => (false, s)

/-- One statement of an attempt. -/
def exec (s : State) : (op : Op) → op.Outcome × State
  | .byOwnerAccountMessage account message => (s.map.byOwnerAccountMessage account message, s)
  | .oldestUnboundEcho bot => (s.map.oldestUnboundEcho bot, s)
  | .bindOwnerMessage link account message => s.bind link account message
  | .nowMs => (s.clock, s)
  | .noteError _ head _ => ((), { s with errors := s.errors ++ [head] })
  | .stopBinding link => ((), { s with map := s.map.stopBinding link })

/-- What Telegram shows comes after all that it has shown before, and a row of a bot after its
older ones. -/
def comesNext (s : State) (x : Shown) : Bool :=
  (s.shown.all fun y => decide (y.owner < x.owner) &&
    (x.row.all fun i => y.row.all fun j => y.bot != x.bot || decide (j < i))) &&
  x.row.all fun i => (s.map.get? i).any fun r =>
    r.telegramBotId == x.bot && (s.shown.all fun y => y.row != some i)

variable (account : Int) (bridgeOf : Int → Option String)

/-- The job of an echo, unless its key is there. -/
def submit (s : State) (x : Shown) : State :=
  match bridgeOf x.bot with
  | none => s
  | some bridge =>
      if s.jobs.any fun p => p.accountId == account && p.ownerMessageId == x.owner then s
      else { s with jobs := s.jobs ++ [⟨x.bot, bridge, account, x.owner, x.fingerprint, s.clock⟩] }

def step (s : State) : Event → Option State
  | .clock now => some { s with clock := now }
  | .claim bridge chat message bot telegramChat fingerprint =>
      match s.map.claimFromMax
        (MessageMap.newClaim bridge chat message bot telegramChat fingerprint s.clock) with
      | (m, some link) => some { s with
          map := m, recorded := fun i => if i = link then fingerprint else s.recorded i }
      | (_, none) => none
  | .forget link => some { s with map := s.map.forget link }
  | .shown x => if s.comesNext x then some { s with shown := s.shown ++ [x] } else none
  | .echo n => do
      let x ← s.shown[n]?
      return s.submit account bridgeOf x
  | .attempt job => do
      let p ← s.jobs[job]?
      return { s with attempts := s.attempts ++ [(p, resolveEcho p)] }
  | .step n =>
      match s.attempts[n]? with
      | some (p, .ask op k) =>
          let (r, s') := s.exec op
          some { s' with attempts := s'.attempts.set n (p, k r) }
      | _ => none
  | .stops n => some { s with attempts := s.attempts.eraseIdx n }

end State

def sys (account : Int) (bridgeOf : Int → Option String) : Run.Sys State Event :=
  ⟨.start, State.step account bridgeOf⟩

/-! ## what is asked of the bindings -/

/-- The row of the message that Telegram shows under an owner's id. -/
def State.ownRow (s : State) (owner : Int) : Option Nat :=
  (s.shown.find? (·.owner == owner)).bind (·.row)

structure State.InOrder (s : State) : Prop where
  /-- Every binding is to a row with the echo's own fingerprint. -/
  content : ∀ b ∈ s.bindings, ∃ x ∈ s.shown, x.owner = b.owner ∧
    s.recorded b.row = some x.fingerprint
  /-- No owner-side id is bound to two rows. -/
  oneRow : ∀ b ∈ s.bindings, ∀ b' ∈ s.bindings, b.owner = b'.owner → b.row = b'.row
  /-- No bound row changes its id. -/
  oneOwner : ∀ b ∈ s.bindings, ∀ b' ∈ s.bindings, b.row = b'.row → b.owner = b'.owner
  /-- What a row carries was bound to it. -/
  carried : ∀ i r x, s.map.get? i = some r → r.telegramOwnerMessageId = some x →
    ∃ b ∈ s.bindings, b.row = i ∧ b.owner = x
  /-- The rows of a bot are bound in the order of the owner's ids. -/
  ordered : ∀ b ∈ s.bindings, ∀ b' ∈ s.bindings, b.bot = b'.bot → b.row < b'.row →
    b.owner < b'.owner
  /-- An older row is passed over only after an error was recorded for it. -/
  loud : ∀ b ∈ s.bindings, ∀ j ∈ b.older, j ∈ s.errors

/-- The echo a look at the head is made for is in its turn: its own row waits, and no older row
of the bot with the same fingerprint does. -/
def State.inTurn (s : State) (p : EchoPayload) : Bool :=
  (s.ownRow p.ownerMessageId).any fun own =>
    (s.map.get? own).any (fun r => MessageMap.unboundEcho p.botId r &&
      r.echoFingerprint == some p.fingerprint) &&
    !(s.map.holdsOf fun j r => decide (j < own) && MessageMap.unboundEcho p.botId r &&
      r.echoFingerprint == some p.fingerprint)

/-- Wherever an echo finds its fingerprint at the head, it is in its turn. -/
def State.takesTurns (s : State) : Event → Bool
  | .step n =>
      match s.attempts[n]? with
      | some (p, .ask (.oldestUnboundEcho bot) _) =>
          (matching p.fingerprint (s.map.oldestUnboundEcho bot)).isNone || s.inTurn p
      | _ => true
  | _ => true

end Telemax.OwnerEcho
