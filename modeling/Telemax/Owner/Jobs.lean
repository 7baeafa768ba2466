import Telemax.Queue.Attempt
import Telemax.Routing.TextChunks
import Telemax.Storage.MessageMap

/-!
# Telemax.Owner.Jobs

What the owner does in Telegram and the jobs it becomes: a message handed to one
of the three intakes, or a reaction MAX has no counterpart for, one pass of an
intake over it, and the edits and deletes that name a message afterwards.
-/

namespace Telemax.Owner

/-! ## intake -/

/-- What a message of the owner carries. -/
inductive Content
  | text (body : String)
  | contact (vcard : String) (user : Option Int)
  /-- Files by reference; with a `grouped_id`, a whole album. -/
  | media (caption items sources mtproto : String) (grouped : Option Int)
  /-- A reaction to a message, said as an emoji in answer to what stands in MAX. -/
  | note (account : Int) (pts : Nat) (emoji : String) (replyTo : Int)
  deriving DecidableEq, Repr

/-- A message as an intake is handed it.  A note has the id of the message reacted to and the chat
it stands in; it is no message of Telegram itself, and has no account of its own. -/
structure Message where
  target : BridgeTarget
  /-- The owner's account, when their own session brought the message. -/
  account : Option Int
  messageId : Int
  /-- The chat it came from, and the owner's chat with the bots. -/
  chatId : Int
  ownerChatId : Int
  replyTo : Option Int
  content : Content
  deriving DecidableEq, Repr

namespace Message

def kind (m : Message) : JobKind :=
  match m.content with
  | .text _ | .note .. => .tgToMaxText
  | .contact _ _ => .tgToMaxContact
  | .media .. => .tgToMaxMedia

/-- `album_group_id`: the namespace of the group the parts are stored under. -/
def album (m : Message) : Option String :=
  match m.account, m.content with
  | some account, .media _ _ _ _ (some grouped) =>
      some (ownerAlbumNamespace account m.target.botId grouped)
  | _, _ => none

/-- The key the job of this message is filed under, or the base of its parts' keys. -/
def sourceKey (m : Message) : String :=
  match m.content with
  | .note account pts emoji _ =>
      ownerEmojiNoteSourceKey account m.target.botId m.messageId pts emoji
  | _ =>
      match m.album with
      | some group => ownerAlbumSourceKey group
      | none => telegramSourceKey m.target.botId m.messageId m.account

def isNote (m : Message) : Bool :=
  match m.content with
  | .note .. => true
  | _ => false

/-- What `_record_intake` hands to `record_from_telegram`, and `carry_emoji_note`. -/
def intake (m : Message) : MessageMap.Intake where
  bridgeName := m.target.name
  maxChatId := m.target.maxChatId
  telegramBotId := m.target.botId
  telegramChatId := if m.account.isSome || m.isNote then m.ownerChatId else m.chatId
  telegramMessageId := if m.account.isSome || m.isNote then none else some m.messageId
  telegramOwnerMessageId := if m.account.isSome then some m.messageId else none
  telegramOwnerAccountId := m.account

/-- The payloads of its jobs.  Only the first part of a text quotes and names the
mapping row. -/
def payloads (m : Message) (reply : Option Int) (link : Nat) : List Payload :=
  match m.content with
  | .text body =>
      (splitMaxText body).zipIdx.map fun (chunk, index) =>
        [("max_chat_id", .int m.target.maxChatId), ("text", .str chunk),
          ("reply_to", if index = 0 then .ofInt? reply else .null)] ++
          if index = 0 then [("link_id", .int link)] else []
  | .contact vcard user =>
      [[("max_chat_id", .int m.target.maxChatId), ("vcard", .str vcard),
        ("contact_user_id", .ofInt? user), ("reply_to", .ofInt? reply), ("link_id", .int link)]]
  | .media caption items sources mtproto _ =>
      [[("max_chat_id", .int m.target.maxChatId), ("bot_id", .int m.target.botId),
        ("caption", .str caption), ("reply_to", .ofInt? reply), ("link_id", .int link),
        ("items", .json items), ("sources", .json sources), ("mtproto", .json mtproto)]]
  | .note _ _ emoji replyTo =>
      [[("max_chat_id", .int m.target.maxChatId), ("text", .str emoji),
        ("reply_to", .int replyTo), ("link_id", .int link)]]

/-- Its jobs, in order. -/
def parts (m : Message) (reply : Option Int) (link : Nat) : List JobSpec :=
  let payloads := m.payloads reply link
  payloads.zipIdx.map fun (payload, index) =>
    { bridgeName := m.target.name, direction := .tgToMax, kind := m.kind, payload,
      sourceKey := textPartSourceKey m.sourceKey index payloads.length }

/-- How a part is submitted: texts wait for older texts, the rest for nothing. -/
def barrier (m : Message) : Barrier :=
  match m.content with
  | .text _ => .kind
  | _ => .none

end Message

/-- Where one pass over a message stands. -/
inductive Progress
  /-- About to look up what the message answers. -/
  | replying
  /-- An album, about to ask its parts for the row they are bound to. -/
  | locating
  /-- The parts are bound to nothing; about to ask the mapping. -/
  | locatingHead
  /-- About to call `record_from_telegram`. -/
  | recording
  /-- An album, about to bind its parts. -/
  | binding
  /-- About to write all parts of a long text down. -/
  | filing
  /-- About to submit this part. -/
  | turn (index : Nat)
  /-- Inside the inline attempt of this part. -/
  | waiting (index attempt : Nat)
  | over
  | dead
  deriving DecidableEq, Repr

def Progress.running : Progress → Bool
  | .over | .dead => false
  | _ => true

/-- One pass of an intake over one message, and what it holds in memory. -/
structure Pass where
  message : Message
  reply : Option Int := none
  link : Option Nat := none
  progress : Progress := .replying
  deriving DecidableEq, Repr

/-- A pass begins with what the message answers; a note knows that, and is written down at once. -/
def Pass.begin (m : Message) : Pass where
  message := m
  progress := if m.isNote then .recording else .replying

def Pass.parts (y : Pass) : List JobSpec := y.message.parts y.reply (y.link.getD 0)

/-- Once the mapping row is known. -/
def Pass.mapped (y : Pass) (link : Nat) : Pass :=
  { y with link := some link,
           progress := if y.message.album.isSome then .binding
                       else if 1 < (y.message.payloads y.reply link).length then .filing
                       else .turn 0 }

/-! ## edits and deletes -/

/-- What an owner-side id names: the mapping row, the canonical id, the jobs. -/
structure Mutation where
  account : Int
  message : Int
  link : Option Nat
  /-- What the message's own edits and deletes are filed under. -/
  key : String
  sendKey : String
  deriving DecidableEq, Repr

namespace Mutation

def payload (d : Mutation) (chat : Int) : Payload :=
  [("max_chat_id", .int chat), ("account_id", .int d.account),
    ("owner_message_id", .int d.message), ("link_id", .ofInt? (d.link.map Int.ofNat)),
    ("mutation_key", .str d.key), ("send_source_key", .str d.sendKey)]

/-- What `resolve_edit` and `resolve_delete` read of a payload. -/
def read (p : Payload) : Option Mutation :=
  match p.int? "account_id", p.int? "owner_message_id", p.str? "send_source_key" with
  | some account, some message, some sendKey =>
      some { account, message, link := (p.int? "link_id").map Int.toNat,
             key := (p.str? "mutation_key").getD (toString message), sendKey }
  | _, _, _ => none

end Mutation

/-- One accepted edit. -/
structure Edit where
  target : Mutation
  chat : Int
  pts : Nat
  fingerprint : String
  text : String
  deriving DecidableEq, Repr

namespace Edit

def jobKey (d : Edit) : String :=
  editSourceKey d.target.account d.target.key d.pts d.fingerprint

def payload (d : Edit) : Payload := d.target.payload d.chat ++ [("text", .str d.text)]

end Edit

/-- `_with_text`. -/
def withText (p : Payload) (text : String) : Payload :=
  if (p.get "text").isSome then p.set "text" (.str text)
  else if (p.get "caption").isSome then p.set "caption" (.str text)
  else p

/-- How long a mutation waits for a send that is still in flight. -/
def waitMs : Nat := 1000

/-- The reason with which a delete archives a send that failed. -/
def deletedReason : String := "owner deleted before delivery"

end Telemax.Owner
