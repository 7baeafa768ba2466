import Telemax.Lib.Script
import Telemax.Provisioning.Coordinator
import Telemax.Provisioning.Journal

/-!
# Telemax.Provisioning.Batch

`ProvisioningBatch` and `ProvisioningReconciler` as scripts: what they read from
the journal and write to it, where they stand for a contact, and the calls of
the gateway and the provisioner they await.

A run takes its entries from the journal once, before its loop, and every
decision of the loop is made on that copy.
-/

namespace Telemax.Provisioning

/-- Who holds a deterministic username. -/
inductive UsernameState
  | free
  | owned
  | foreign
  | unmanageable
  deriving DecidableEq, Repr

/-- What the code tells apart in an exception. -/
inductive ErrorClass
  | bridgeConflict (text : String)
  /-- `OwnerMustOpenChatError`, a `ProvisionerError`. -/
  | ownerMustOpenChat
  | provisioner
  | other
  deriving DecidableEq, Repr

/-- An exception, with what `classify_failure` says of it. -/
structure Raised where
  cls : ErrorClass
  failure : ProvisioningFailure
  deriving DecidableEq, Repr

inductive Fault
  | cancelled
  | raised (e : Raised)
  /-- `note` on a contact the journal does not know. -/
  | keyError (chat : Int)
  deriving DecidableEq, Repr

structure CreatedBot where
  token : String
  botId : Option Int
  deriving DecidableEq, Repr

/-- The awaited calls.  `create_bot` and `wipe_dialog` name the bot; the contact it is for
stands beside it. -/
inductive Call
  /-- A place among the attempts reconciled at once. -/
  | limit
  | isHealthy (chat : Int)
  | preflight (chat : Int) (username : String)
  | checkUsername (username : String)
  | botIdFor (username : String)
  | prepare (username : String)
  /-- `progress`. -/
  | report
  | createBot (chat : Int) (name username : String)
  | forgetBot (chat : Int) (keeping : Option Int)
  | saveToken (chat : Int) (username token : String)
  | stopBridge (chat : Int)
  | wipeDialog (chat botId : Int)
  | startWorker (chat : Int) (username tokenEnv title : String) (maxUserId : Option Int)
  | sendStart (username : String) (botId : Option Int)
  | markActive (chat : Int)
  deriving DecidableEq, Repr

abbrev Call.Reply : Call → Type
  | .isHealthy _ => Bool
  | .checkUsername _ => UsernameState
  | .botIdFor _ => Option Int
  | .createBot .. => CreatedBot
  | .saveToken .. => String
  | .startWorker .. => String
  | _ => Unit

/-- The contact of a call that would undo a bridge. -/
def Call.undoes : Call → Option Int
  | .createBot chat _ _ | .saveToken chat _ _ | .stopBridge chat | .wipeDialog chat _
  | .startWorker chat _ _ _ _ => some chat
  | _ => none

/-- Where a `note` is written from. -/
inductive Writer
  /-- `_provision`, inside the claim. -/
  | walk
  /-- `_went_away`. -/
  | wentAway
  /-- `_reconcile`, outside any claim. -/
  | reconcile
  deriving DecidableEq, Repr

/-- What a run does: the journal at once, a claim with or without waiting, a call awaited. -/
inductive Op
  | walking (chatIds : Option (List Int))
  | get (chat : Int)
  | note (writer : Writer) (chat : Int) (changes : Changes)
  /-- The contact the claim is for stands beside its key. -/
  | claim (key : ContactKey) (chat : Int)
  | leave (key : ContactKey) (how : Claimed)
  | await (c : Call)
  deriving DecidableEq, Repr

abbrev Op.Outcome : Op → Type
  | .walking _ => List JournalEntry
  | .get chat => Option { e : JournalEntry // e.maxChatId = chat }
  | .note .. => Except Fault Unit
  | .claim .. => Claimed
  | .leave .. => Unit
  | .await c => Except Fault c.Reply

abbrev Prog := Script Op.Outcome Fault

def ask (op : Op) : Prog op.Outcome := Script.query op

def await (c : Call) : Prog c.Reply := do
  let r : Except Fault c.Reply ← ask (.await c)
  Script.orThrow id r

def note (writer : Writer) (chat : Int) (changes : Changes) : Prog Unit := do
  let r : Except Fault Unit ← ask (.note writer chat changes)
  Script.orThrow id r

/-- `try … except Exception`. -/
def excepting {α : Type} (x : Prog α) (handler : Fault → Prog α) : Prog α :=
  tryCatch x fun
    | .cancelled => throw .cancelled
    | e => handler e

/-- A call some ports do not have, and whose failure nothing hangs on. -/
def bestEffort (can : Bool) (x : Prog Unit) : Prog Unit :=
  if can then excepting x fun _ => pure () else pure ()

/-- `async with coordinator.claim(key)`; whether the contact was ours to walk. -/
def claiming (key : ContactKey) (chat : Int) (body : Prog Unit) : Prog Bool := do
  let how : Claimed ← ask (.claim key chat)
  match how with
  | .cancelled => throw .cancelled
  | .lost => return false
  | how =>
      Script.ensuring body (ask (.leave key how))
      return true

/-- What the ports of a run can do, and how it was asked for. -/
structure Config where
  chatIds : Option (List Int)
  displayNameOf : JournalEntry → String
  ownUserId : Option Int := none
  wipeExisting : Bool := true
  hasProgress : Bool := false
  hasPreflight : Bool := true
  hasPrepare : Bool := true
  hasForgetBot : Bool := true
  hasBotIdFor : Bool := true
  hasWipeDialog : Bool := true

namespace ProvisioningBatch

def healthMessage : String := "бот создан, но мост ещё не отвечает"
def startMessage : String := "бот создан, но чат с ним не открылся"

def key (cfg : Config) (entry : JournalEntry) : ContactKey :=
  match entry.maxPeerId with
  | some peer => .forUser peer
  | none => .forChat entry.maxChatId cfg.ownUserId

def fail (chat : Int) (retryable : Bool) (reason : String)
    (failure : Option ProvisioningFailure) : Prog Unit :=
  note .walk chat
    { state := some (if retryable then .failedRetryable else .failedPermanent)
      error := some (some reason), failure := some failure }

/-- `classify_failure`; a `KeyError` says nothing it knows. -/
def classifyFailure : Fault → ProvisioningFailure
  | .raised e => e.failure
  | _ => .unknownProvisioningError

def failWith (chat : Int) (failure : ProvisioningFailure) : Prog Unit :=
  fail chat failure.retryable failure.message (some failure)

def report (cfg : Config) : Prog Unit :=
  bestEffort cfg.hasProgress (await .report)

/-- Whether an entry that claims to be finished no longer is. -/
def wentAway (entry : JournalEntry) : Prog Bool := do
  if entry.state ≠ .healthy then return false
  let alive : Bool ← excepting (await (.isHealthy entry.maxChatId)) fun _ => pure true
  if alive then return false
  note .wentAway entry.maxChatId { state := some .pending }
  return true

/-- The reason this contact cannot be bridged, or none. -/
def preflight (cfg : Config) (chat : Int) (username : String) : Prog (Option String) :=
  if cfg.hasPreflight then
    excepting (do let _ : Unit ← await (.preflight chat username); return none) fun
      | .raised ⟨.bridgeConflict text, _⟩ => pure (some text)
      | _ => pure none
  else pure none

def prepare (cfg : Config) (username : String) : Prog Unit :=
  bestEffort cfg.hasPrepare (await (.prepare username))

def forgetOldBot (cfg : Config) (chat : Int) (keeping : Option Int) : Prog Unit :=
  bestEffort cfg.hasForgetBot (await (.forgetBot chat keeping))

/-- Record which bot this attempt owns, if the port can say. -/
def rememberBotId (cfg : Config) (entry : JournalEntry) : Prog Unit := do
  if entry.telegramBotId.isSome ∨ cfg.hasBotIdFor = false then return
  let botId : Option Int ←
    excepting (await (.botIdFor entry.expectedUsername)) fun _ => pure none
  match botId with
  | some botId =>
      if botId ≠ 0 then note .walk entry.maxChatId { telegramBotId := some (some botId) }
  | none => return

/-- Empty the chat with a bot that is being reused. -/
def wipeDialog (cfg : Config) (entry : JournalEntry) (botId : Option Int) : Prog Unit :=
  match botId with
  | some botId =>
      bestEffort (cfg.wipeExisting && cfg.hasWipeDialog) (await (.wipeDialog entry.maxChatId botId))
  | none => pure ()

/-- `create_bot`, or none where it failed in a way the journal tells. -/
def createBot (cfg : Config) (entry : JournalEntry) : Prog (Option CreatedBot) :=
  tryCatch (some <$> await (.createBot entry.maxChatId (cfg.displayNameOf entry)
    entry.expectedUsername)) fun
    | .raised ⟨.provisioner, failure⟩ | .raised ⟨.ownerMustOpenChat, failure⟩ => do
        failWith entry.maxChatId failure
        return none
    | e => throw e

/-- The screen of the confirmation, drawn before the call that waits for it. -/
def askConfirmation (cfg : Config) (entry : JournalEntry) (state : UsernameState) : Prog Unit :=
  if state ≠ .owned then do
    note .walk entry.maxChatId { state := some .awaitingConfirmation }
    prepare cfg entry.expectedUsername
    report cfg
  else pure ()

def saveToken (entry : JournalEntry) (token : String) : Prog (Option String) :=
  excepting (some <$> await (.saveToken entry.maxChatId entry.expectedUsername token)) fun _ => do
    fail entry.maxChatId true "токен не сохранился" none
    return none

/-- Get a usable token for this contact's bot, making it if it is absent. -/
def ensureBot (cfg : Config) (entry : JournalEntry) (state : UsernameState) : Prog Bool := do
  askConfirmation cfg entry state
  let some created ← createBot cfg entry | return false
  forgetOldBot cfg entry.maxChatId created.botId
  note .walk entry.maxChatId
    { state := some .botCreated, telegramBotId := created.botId.map some }
  let some tokenEnv ← saveToken entry created.token | return false
  note .walk entry.maxChatId { state := some .tokenSaved, tokenEnv := some (some tokenEnv) }
  let _ : Unit ← await (.stopBridge entry.maxChatId)
  if state = .owned then wipeDialog cfg entry created.botId
  return true

def launch (entry : JournalEntry) (tokenEnv : String) : Prog Bool := do
  let name : Option String ←
    excepting (some <$> await (.startWorker entry.maxChatId entry.expectedUsername tokenEnv
      entry.title entry.maxPeerId)) fun _ => do
        fail entry.maxChatId true "мост не запустился" none
        return none
  match name with
  | none => return false
  | some name =>
      note .walk entry.maxChatId
        { state := some .workerStarted, bridgeName := some (some name) }
      return true

/-- How `send_start` came out. -/
inductive Started
  | sent
  | ownerMustOpen
  | failed
  deriving DecidableEq, Repr

/-- `/start` from the owner's own account. -/
def openChat (entry : JournalEntry) : Prog Bool := do
  let how : Started ←
    excepting (do let _ : Unit ← await (.sendStart entry.expectedUsername entry.telegramBotId)
                  return Started.sent) fun
      | .raised ⟨.ownerMustOpenChat, _⟩ => pure .ownerMustOpen
      | _ => pure .failed
  match how with
  | .ownerMustOpen =>
      note .walk entry.maxChatId { state := some .startSent, needsOpen := some true }
      return true
  | .failed =>
      fail entry.maxChatId true startMessage none
      return false
  | .sent =>
      note .walk entry.maxChatId { state := some .startSent }
      return true

def verify (entry : JournalEntry) : Prog Unit := do
  let healthy : Bool ←
    excepting (await (.isHealthy entry.maxChatId)) fun _ => pure false
  if healthy = false then
    fail entry.maxChatId true healthMessage none
  else
    let marked : Bool ←
      excepting (do let _ : Unit ← await (.markActive entry.maxChatId); return true)
        fun _ => pure false
    if marked = false then fail entry.maxChatId true healthMessage none
    else
      note .walk entry.maxChatId
        { state := some .healthy, error := some none, failure := some none }

/-- The second half of a walk: the bot has a token. -/
def bringUp (entry : JournalEntry) : Prog Unit := do
  let found : Option { e : JournalEntry // e.maxChatId = entry.maxChatId } ←
    ask (.get entry.maxChatId)
  let current := (found.getD ⟨entry, rfl⟩).1
  match current.tokenEnv with
  | none => fail entry.maxChatId true "токен не сохранился" none
  | some tokenEnv =>
      let launched : Bool ← launch current tokenEnv
      if launched = false then return
      let opened : Bool ← openChat current
      if opened = false then return
      verify current

/-- What the username says: whether to stop here, or to go on and how. -/
def checkUsername (entry : JournalEntry) : Prog (Option UsernameState) :=
  excepting (some <$> await (.checkUsername entry.expectedUsername)) fun e => do
    failWith entry.maxChatId (classifyFailure e)
    return none

/-- One contact, from start to finish. -/
def provision (cfg : Config) (entry : JournalEntry) : Prog Unit := do
  let conflict : Option String ← preflight cfg entry.maxChatId entry.expectedUsername
  match conflict with
  | some reason => fail entry.maxChatId false reason none
  | none =>
      let state : Option UsernameState ← checkUsername entry
      match state with
      | none => return
      | some .foreign => failWith entry.maxChatId .usernameOccupied
      | some .unmanageable => failWith entry.maxChatId .botNotManageable
      | some .owned =>
          rememberBotId cfg entry
          if entry.tokenEnv.isSome then bringUp entry
          else
            let ready : Bool ← ensureBot cfg entry .owned
            if ready then bringUp entry
      | some .free =>
          let ready : Bool ← ensureBot cfg entry .free
          if ready then bringUp entry

/-- Is there anything to do for an entry of the copy? -/
def open? (entry : JournalEntry) : Prog Bool :=
  if entry.state ∈ terminal then wentAway entry else pure true

/-- One entry of the copy. -/
def takeUp (cfg : Config) (entry : JournalEntry) : Prog Unit := do
  let walk : Bool ← open? entry
  if walk = false then return
  let mine : Bool ← claiming (key cfg entry) entry.maxChatId (provision cfg entry)
  if mine then report cfg

def loop (cfg : Config) : List JournalEntry → Prog Unit
  | [] => pure ()
  | entry :: rest => do
      takeUp cfg entry
      loop cfg rest

def run (cfg : Config) : Prog (List JournalEntry) := do
  let entries : List JournalEntry ← ask (.walking cfg.chatIds)
  loop cfg entries
  ask (.walking cfg.chatIds)

end ProvisioningBatch

/-! ## start-up -/

/-- What start-up decided about one interrupted attempt. -/
inductive Verdict
  | resumed
  | awaitingOwner
  | collision
  | unavailable
  | settled
  deriving DecidableEq, Repr

namespace ProvisioningReconciler

/-- Walk the existing batch over one contact. -/
def resume (cfg : Config) (entry : JournalEntry) : Prog Verdict := do
  let batch := { cfg with
    chatIds := some [entry.maxChatId], wipeExisting := true, hasProgress := false }
  let mine : Bool ← claiming (ProvisioningBatch.key cfg entry) entry.maxChatId
    (do let _ : List JournalEntry ← ProvisioningBatch.run batch)
  if mine = false then return .settled
  let found : Option { e : JournalEntry // e.maxChatId = entry.maxChatId } ←
    ask (.get entry.maxChatId)
  let settled := (found.getD ⟨entry, rfl⟩).1
  if settled.state = .failedPermanent then return .collision
  return if settled.finished then .resumed else .awaitingOwner

def collision (entry : JournalEntry) (failure : ProvisioningFailure) (error : String) :
    Prog Verdict := do
  note .reconcile entry.maxChatId
    { state := some .failedPermanent, error := some (some error), failure := some (some failure) }
  return .collision

/-- Decide by the durable evidence, then by what Telegram says. -/
def reconcile (cfg : Config) (entry : JournalEntry) : Prog Verdict := do
  let _ : Unit ← await .limit
  if entry.state ∈ terminal then return .settled
  let state : Option UsernameState ←
    excepting (some <$> await (.checkUsername entry.expectedUsername)) fun _ => pure none
  match state with
  | none => return .unavailable
  | some .foreign =>
      collision entry .usernameOccupied "детерминированный username занят другим Telegram-аккаунтом"
  | some .unmanageable =>
      collision entry .botNotManageable "бот есть, но страж им не управляет — создан вручную"
  | some .free => return .awaitingOwner
  | some .owned => resume cfg entry

/-- The attempts start-up takes up. -/
def unfinished (j : ProvisioningJournal) : List JournalEntry :=
  j.entries.filter fun e => e.state ∉ terminal

end ProvisioningReconciler

end Telemax.Provisioning
