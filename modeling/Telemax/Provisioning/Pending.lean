import Telemax.Lib.Script
import Telemax.Media.Attachments

/-!
# Telemax.Provisioning.Pending

Contacts without a bridge yet: what they write is held in `pending_inbox` and
replayed once their bot exists.  `PendingContactRepository` and the four calls
of `Provisioner` that use it, as programs over the statements they await; a
program runs without a break from one await to the next.

The lock of the process is held while a message is recorded, and only then.
-/

namespace Telemax.Provisioning.Pending

open Script
open Telemax.Media (AttachmentKind)

/-- The values of `AttachmentKind`. -/
def kindValue : AttachmentKind → String
  | .photo => "photo"
  | .video => "video"
  | .videoNote => "video_note"
  | .voice => "voice"
  | .music => "music"
  | .file => "file"
  | .sticker => "sticker"
  | .contact => "contact"
  | .call => "call"
  | .link => "link"
  | .service => "service"
  | .unknown => "unknown"

inductive ContactState
  | new
  | asked
  | ignored
  | blocked
  | provisioned
  deriving DecidableEq, Repr

/-- A row of `pending_contacts`. -/
structure Contact where
  maxUserId : Option Int
  displayName : Option String
  state : ContactState
  askedAt : Option Int
  deriving DecidableEq, Repr

/-- A contact as it is read, with the number of messages held for it. -/
structure PendingContact extends Contact where
  buffered : Nat
  deriving DecidableEq, Repr

structure IncomingMaxMessage where
  messageId : Int
  chatId : Int
  senderId : Option Int
  text : String
  timestamp : Int
  attachments : List AttachmentKind
  deriving DecidableEq, Repr

structure Payload where
  messageId : Int
  text : String
  timestamp : Int
  attachments : List AttachmentKind
  deriving DecidableEq, Repr

/-- A row of `pending_inbox`. -/
structure Row where
  id : Nat
  maxChatId : Int
  payload : Payload
  createdAt : Int
  deriving DecidableEq, Repr

structure PendingAnnouncement where
  maxChatId : Int
  displayName : String
  buffered : Nat
  revision : Int
  deriving DecidableEq, Repr

structure BridgeRecord where
  bridgeName : String
  maxChatId : Int
  tokenEnv : String
  telegramBotId : Option Int
  /-- `ACTIVE`, or still `PROVISIONING`. -/
  active : Bool
  deriving DecidableEq, Repr

/-- What an await may raise. -/
inductive Fault
  | cancelled
  | raised (text : String)
  deriving DecidableEq, Repr

inductive Failure
  | fault (f : Fault)
  /-- A `ProvisioningError`. -/
  | provisioning (text : String)
  | assertion
  deriving DecidableEq, Repr

/-- What is awaited. -/
inductive Await
  | acquire
  | getContact (chat : Int)
  | upsertContact (chat : Int) (user : Option Int) (name : Option String)
  | setState (chat : Int) (state : ContactState)
  | markAsked (chat : Int)
  | countHeld (chat : Int)
  | insertHeld (chat : Int) (payload : Payload)
  | selectHeld (chat : Int)
  | deleteHeld (chat : Int)
  | selectOld (cutoff : Int)
  | deleteOld (cutoff : Int)
  | byMaxChat (chat : Int)
  | uniqueName (chat : Int)
  | saveSecret (env token : String)
  | upsertBridge (record : BridgeRecord)
  | add (bridge : String)
  | send (bridge text : String)

abbrev Await.Reply : Await → Type
  | .getContact _ => Option PendingContact
  | .countHeld _ => Nat
  | .selectHeld _ | .selectOld _ => List Row
  | .byMaxChat _ => Option (String × Bool)
  | .uniqueName _ => String
  | .add _ => Option Int
  | _ => Unit

inductive Op
  | await (a : Await)
  | release
  /-- `registry.by_name`: whether the bridge is up. -/
  | byName (bridge : String)

abbrev Op.Answer : Op → Type
  | .await a => Except Fault a.Reply
  | .release => Unit
  | .byName _ => Bool

abbrev Prog := Script Op.Answer Failure

def await (a : Await) : Prog a.Reply := do
  let r : Except Fault a.Reply ← query (Op.await a)
  orThrow .fault r

def release : Prog Unit := query Op.release

structure Config where
  /-- `unknown_chat_policy` is `IGNORE`. -/
  ignoresUnknown : Bool
  pendingMaxMessages : Nat
  pendingTtlDays : Nat
  /-- Whether `TOKEN_PATTERN` matches. -/
  isToken : String → Bool

/-- `a or …`: an empty text is nothing. -/
def truthy (text : Option String) : Option String := text.filter (· ≠ "")

/-! ## the repository -/

def noteSeen (chat : Int) (user : Option Int) (name : Option String) : Prog PendingContact := do
  await (.upsertContact chat user name)
  match ← await (.getContact chat) with
  | some contact => return contact
  | none => throw .assertion

def noteAsked (chat : Int) : Prog Int := do
  await (.markAsked chat)
  match ← await (.getContact chat) with
  | some contact => return contact.askedAt.getD 0
  | none => return 0

/-- `buffer`: false when the cap is reached. -/
def buffer (chat : Int) (payload : Payload) (cap : Nat) : Prog Bool := do
  let held ← await (.countHeld chat)
  if cap ≤ held then return false
  else
    await (.insertHeld chat payload)
    return true

def drain (chat : Int) : Prog (List Payload) := do
  let rows ← await (.selectHeld chat)
  await (.deleteHeld chat)
  return rows.map (·.payload)

def expire (cutoff : Int) : Prog Nat := do
  let rows ← await (.selectOld cutoff)
  if rows = [] then return 0
  else
    await (.deleteOld cutoff)
    return rows.length

/-! ## the service -/

def isPersonalChat (chat : Int) : Bool := decide (0 < chat)

/-- What is done under the lock: the contact asked about, and the nonce of the question. -/
def record (cfg : Config) (m : IncomingMaxMessage) (displayName : Option String) :
    Prog (Option (PendingContact × Int)) := do
  let contact ← await (.getContact m.chatId)
  if contact.any fun c => c.state = .ignored ∨ c.state = .blocked then return none
  else
    let seen ← noteSeen m.chatId m.senderId
      ((truthy displayName).or (contact.bind (·.displayName)))
    let _ ← buffer m.chatId ⟨m.messageId, m.text, m.timestamp, m.attachments⟩
      cfg.pendingMaxMessages
    if seen.state = .asked then return none
    else
      let revision ← noteAsked m.chatId
      return some (seen, revision)

def onUnbridgedMessage (cfg : Config) (m : IncomingMaxMessage) (displayName : Option String) :
    Prog (Option PendingAnnouncement) := do
  if cfg.ignoresUnknown then return none
  else if !isPersonalChat m.chatId then return none
  else
    await .acquire
    let asked ← ensuring (record cfg m displayName) release
    return asked.map fun (contact, revision) =>
      { maxChatId := m.chatId
        displayName := ((truthy displayName).or (truthy contact.displayName)).getD
          "неизвестный контакт"
        buffered := contact.buffered + 1
        revision }

def ignore (chat : Int) (block : Bool) : Prog Unit := do
  await (.setState chat (if block then .blocked else .ignored))
  if block then
    let _ ← drain chat
    return ()
  else return ()

/-- The text a held message is replayed as. -/
def Payload.shown (p : Payload) : String :=
  let kinds := "[" ++ String.intercalate ", " (p.attachments.map kindValue) ++ "]"
  if p.attachments = [] then p.text
  else if p.text = "" then kinds
  else p.text ++ "\n" ++ kinds

/-- The loop of `replay`: a message that cannot be sent is passed over. -/
def sendAll (bridge : String) : List Payload → Prog Unit
  | [] => return ()
  | p :: rest => do
      if p.shown = "" then sendAll bridge rest
      else
        tryCatch (await (.send bridge p.shown)) fun
          | .fault (.raised _) => return ()
          | e => throw e
        sendAll bridge rest

def replay (bridge : String) (messages : List Payload) : Prog Unit := do
  let live : Bool ← query (Op.byName bridge)
  if live then sendAll bridge messages else return ()

/-- The bridge is brought up: its bot. -/
def bringUp (bridge : String) : Prog (Option Int) :=
  tryCatch (await (.add bridge)) fun
    | .fault (.raised text) => throw (.provisioning ("Бот не поднялся: " ++ text))
    | e => throw e

def bridgeNameOf (chat : Int) (name : Option String) :
    Option (String × Bool) → Prog String
  | some (existing, _) => return existing
  | none =>
      match truthy name with
      | some name => return name
      | none => await (.uniqueName chat)

def activate (cfg : Config) (chat : Int) (token : String) (name : Option String) :
    Prog String := do
  if !cfg.isToken token then
    throw (.provisioning
      "Это не похоже на токен бота. Он выглядит как 123456789:AA... от @BotFather.")
  else
    let existing ← await (.byMaxChat chat)
    match existing with
    | some (bridge, true) =>
        throw (.provisioning ("Для этого контакта уже есть мост «" ++ bridge ++ "»."))
    | _ =>
        let bridge ← bridgeNameOf chat name existing
        let env := "TELEMAX_BOT_" ++ bridge.toUpper
        await (.saveSecret env token)
        await (.upsertBridge ⟨bridge, chat, env, none, false⟩)
        let bot ← bringUp bridge
        await (.upsertBridge ⟨bridge, chat, env, bot, true⟩)
        await (.setState chat .provisioned)
        let backlog ← drain chat
        if backlog = [] then return bridge
        else
          replay bridge backlog
          return bridge

end Telemax.Provisioning.Pending
