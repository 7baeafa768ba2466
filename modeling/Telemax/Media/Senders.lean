import Telemax.Lib.Script
import Telemax.Media.Attachments
import Telemax.Routing.Settlement
import Telemax.Storage.AlbumSettlement

/-!
# Telemax.Media.Senders

The two `TelegramMediaSender`s as scripts over what they ask of Telegram: the
contact bot over the Bot API, and the owner over their own session.  Every
method that creates a message names it or raises.

A second creating call is made in two places only: where Telegram answered that
it will not take the content in this form, and part by part where it answered
that it will not build the group, or where the owner's album holds a video.
-/

namespace Telemax.Media

/-! ## the outside -/

/-- Why an awaited call did not come back. -/
inductive Fault
  | cancelled
  | other (name text : String)
  deriving DecidableEq, Repr

def Fault.toSend : Fault → SendError
  | cancelled => .cancelled
  | other name text => .other name text

/-- Why a call of Telegram did not: an answer of one of the two transports, or as above. -/
inductive RemoteFault
  | telegram (error : TelegramError)
  | rpc (error : RpcError)
  | fault (f : Fault)
  deriving DecidableEq, Repr

def RemoteFault.toSend : RemoteFault → SendError
  | telegram error => .telegram error
  | rpc error => .rpc error
  | fault f => f.toSend

/-- The formatting ranges of a text, as they are handed over. -/
abbrev Entities := Option String

/-- URL buttons, each with its address. -/
abbrev Buttons := Option (List (String × String))

structure LocalFile where
  path : String
  displayName : String
  deriving DecidableEq, Repr

/-- One local file, and what Telegram wants to know about it. -/
structure OutgoingMedia where
  kind : AttachmentKind
  path : String
  fileName : String
  caption : Option String := none
  captionEntities : Entities := none
  durationSeconds : Option Nat := none
  width : Option Int := none
  height : Option Int := none
  title : Option String := none
  performer : Option String := none
  thumbnail : Option String := none
  deriving DecidableEq, Repr

/-- The form a file is sent in. -/
inductive Form
  | photo
  | video
  | videoNote
  | voice
  | audio
  | document
  | sticker
  deriving DecidableEq, Repr

/-- What a creating call carries; the last three are the owner's own. -/
inductive Content
  | file (form : Form) (m : OutgoingMedia)
  | group (items : List OutgoingMedia)
  | message (text : String) (entities : Entities) (buttons : Buttons)
  | contact (phone firstName : String) (lastName vcard : Option String)
  /-- A photo Telegram fetches itself. -/
  | photoUrl (url caption : String) (buttons : Buttons)
  | ownFile (form : Form) (m : OutgoingMedia)
  | ownAlbum (paths : List String) (caption : Option String) (entities : Entities)
  | ownMessage (text : String) (entities : Entities)
  deriving DecidableEq, Repr

/-- The messages of a group, each with its id where it has one. -/
structure GroupAnswer where
  ids : List (Option Int)
  mediaGroupId : Option String
  deriving DecidableEq, Repr

abbrev Content.Reply : Content → Type
  | .group _ => GroupAnswer
  | .ownAlbum .. => List (Option Int)
  | _ => Option Int

/-- Why an attachment is not here as a file. -/
inductive FetchError
  | tooLarge (limitBytes : Nat)
  | unavailable (code text : String)
  | fault (f : Fault)
  deriving DecidableEq, Repr

/-- Every call of an attempt goes to one chat; the bot and the peer stay the same. -/
inductive Call
  /-- `fetch_from_max`. -/
  | fetch (a : MaxAttachment)
  /-- `video_thumbnail`. -/
  | cover (path : String)
  /-- The hook `sending`. -/
  | sending
  /-- Is the bot in the registry? -/
  | registered
  /-- Is there an owner session? -/
  | session
  | send (c : Content) (replyTo : Option Int)
  /-- The hash of the file and `origins.put`. -/
  | noteOrigin (path : String) (stickerId : Int)
  | seedBaseline (message : Int)
  | settleAlbum (column : IdColumn) (link : Nat) (parts : Receipt)
  | attachTelegram (link : Nat) (message : Int)
  | attachOwner (link : Nat) (account : Option Int) (message : Int)
  deriving DecidableEq, Repr

abbrev Call.Outcome : Call → Type
  | .fetch _ => Except FetchError LocalFile
  | .cover _ => Except Fault (Option String)
  | .sending => Except Fault Unit
  | .registered => Bool
  | .session => Bool
  | .send c _ => Except RemoteFault c.Reply
  | .noteOrigin .. => Except Fault Unit
  | .seedBaseline _ => Except Fault Unit
  | .settleAlbum .. => Except Fault (Option AlbumSettlementError)
  | .attachTelegram .. => Except Fault Unit
  | .attachOwner .. => Except Fault Unit

abbrev SendScript := Script Call.Outcome SendError

/-- Make one call and wait for it. -/
def ask (c : Call) : SendScript c.Outcome := Script.query c

/-! ## receipts -/

/-- What an album became, in the order Telegram created it. -/
structure AlbumReceipt where
  messageIds : List Int
  mediaGroupId : Option String := none
  deriving DecidableEq, Repr

/-- `check_album_receipt`: what it raises, if the ids do not keep the contract. -/
def albumReceiptError (ids : List Int) (expected : Nat) : Option String :=
  if ids.length ≠ expected then
    some s!"Telegram answered an album of {expected} with {ids.length} message(s)"
  else if ids.dedup.length ≠ ids.length then
    some "Telegram named the same message twice in one album"
  else if ¬ ids.IsChain (· < ·) then
    some "Telegram answered an album out of ascending order; the parts cannot be told apart"
  else if ids.any (· ≤ 0) then some "Telegram named a message id that cannot exist"
  else none

def checkAlbumReceipt (ids : List Int) (expected : Nat) : SendScript Unit :=
  match albumReceiptError ids expected with
  | some text => throw (.unconfirmedDelivery text)
  | none => pure ()

/-- The surface `MaxMediaDelivery` needs. -/
structure TelegramMediaSender where
  /-- `send_photo`, `send_video` and so on. -/
  sendFile : Form → OutgoingMedia → Option Int → SendScript Int
  sendAlbum : List OutgoingMedia → Option Int → SendScript AlbumReceipt
  sendText : String → Option Int → Entities → Buttons → SendScript Int
  sendContact : String → String → Option String → Option String → Option Int → SendScript Int
  /-- Nothing, where Telegram cannot use the address. -/
  sendPhotoUrl : String → String → Option Int → Buttons → SendScript (Option Int)

/-! ## the contact bot -/

namespace RegistryMediaSender

variable (botId : Int)

/-- `_bot`: the live bot, or a proven "nothing was sent". -/
def bot : SendScript Unit := do
  let live : Bool ← ask .registered
  if live then pure ()
  else throw (.telegram (.transportUnavailable s!"bot {botId} is no longer registered"))

/-- `_id`. -/
def idOf : Option Int → SendScript Int
  | none => throw (.unconfirmedDelivery "Telegram accepted the message and named no id")
  | some value =>
      if value ≤ 0 then
        throw (.unconfirmedDelivery s!"Telegram named an impossible message id {value}")
      else pure value

/-- The message an answer names; a failure is passed on. -/
def answered : Except RemoteFault (Option Int) → SendScript Int
  | .ok raw => idOf raw
  | .error f => throw f.toSend

/-- `_document`: the last form, nothing falls back out of it. -/
def document (m : OutgoingMedia) (replyTo : Option Int) : SendScript Int := do
  bot botId
  let r : Except RemoteFault (Option Int) ← ask (.send (.file .document m) replyTo)
  answered r

/-- One file in a form, and what follows its acceptance; `fallback` where Telegram
answered that it will not take the form. -/
def inForm (form : Form) (m : OutgoingMedia) (replyTo : Option Int)
    (accepted : Int → SendScript Int) (fallback : SendScript Int) : SendScript Int := do
  bot botId
  let r : Except RemoteFault (Option Int) ← ask (.send (.file form m) replyTo)
  match r with
  | .ok raw => idOf raw >>= accepted
  | .error (.telegram (.badRequest text)) =>
      if refusedRepresentation (.badRequest text) then fallback
      else throw (.telegram (.badRequest text))
  | .error f => throw f.toSend

/-- `send_text`. -/
def sendText (text : String) (replyTo : Option Int) (entities : Entities) (buttons : Buttons) :
    SendScript Int := do
  bot botId
  let r : Except RemoteFault (Option Int) ← ask (.send (.message text entities buttons) replyTo)
  answered r

/-- `send_photo`. -/
def sendPhoto (m : OutgoingMedia) (replyTo : Option Int) : SendScript Int :=
  inForm botId .photo m replyTo pure (document botId m replyTo)

/-- `send_sticker`. -/
def sendSticker (m : OutgoingMedia) (replyTo : Option Int) : SendScript Int :=
  inForm botId .sticker m replyTo pure (sendPhoto botId m replyTo)

/-- `send_video`. -/
def sendVideo (m : OutgoingMedia) (replyTo : Option Int) : SendScript Int :=
  inForm botId .video m replyTo pure (document botId m replyTo)

/-- `send_video_note`: the caption follows as a message of its own. -/
def sendVideoNote (m : OutgoingMedia) (replyTo : Option Int) : SendScript Int :=
  inForm botId .videoNote m replyTo
    (fun message =>
      match m.caption.filter (· ≠ "") with
      | none => pure message
      | some caption => do
          let _ ← sendText botId caption (some message) none none
          pure message)
    (sendVideo botId { m with kind := .video } replyTo)

/-- `send_voice`. -/
def sendVoice (m : OutgoingMedia) (replyTo : Option Int) : SendScript Int :=
  inForm botId .voice m replyTo pure (document botId m replyTo)

/-- `send_audio`. -/
def sendAudio (m : OutgoingMedia) (replyTo : Option Int) : SendScript Int :=
  inForm botId .audio m replyTo pure (document botId m replyTo)

def sendFile : Form → OutgoingMedia → Option Int → SendScript Int
  | .photo => sendPhoto botId
  | .video => sendVideo botId
  | .videoNote => sendVideoNote botId
  | .voice => sendVoice botId
  | .audio => sendAudio botId
  | .document => document botId
  | .sticker => sendSticker botId

/-- `_dispatch_single`. -/
def dispatchSingle (replyTo : Option Int) (m : OutgoingMedia) : SendScript Int :=
  if m.kind = .photo then sendPhoto botId m replyTo else sendVideo botId m replyTo

/-- `send_album`: the parts go one by one only if the group itself was refused. -/
def sendAlbum (items : List OutgoingMedia) (replyTo : Option Int) : SendScript AlbumReceipt := do
  bot botId
  let r : Except RemoteFault GroupAnswer ← ask (.send (.group items) replyTo)
  match r with
  | .ok answer => do
      let ids ← answer.ids.mapM' idOf
      checkAlbumReceipt ids items.length
      pure ⟨ids, answer.mediaGroupId⟩
  | .error (.telegram (.badRequest text)) =>
      if refusedGroup (.badRequest text) then do
        let separate ← items.mapM' (dispatchSingle botId replyTo)
        checkAlbumReceipt separate items.length
        pure ⟨separate, none⟩
      else throw (.telegram (.badRequest text))
  | .error f => throw f.toSend

/-- `send_contact`. -/
def sendContact (phone firstName : String) (lastName vcard : Option String)
    (replyTo : Option Int) : SendScript Int := do
  bot botId
  let r : Except RemoteFault (Option Int) ←
    ask (.send (.contact phone firstName lastName vcard) replyTo)
  answered r

/-- `send_photo_url`: an address Telegram cannot use makes no message. -/
def sendPhotoUrl (url caption : String) (replyTo : Option Int) (buttons : Buttons) :
    SendScript (Option Int) := do
  bot botId
  let r : Except RemoteFault (Option Int) ← ask (.send (.photoUrl url caption buttons) replyTo)
  match r with
  | .ok raw => some <$> idOf raw
  | .error (.telegram (.badRequest text)) =>
      if refusedRepresentation (.badRequest text) then pure none
      else throw (.telegram (.badRequest text))
  | .error f => throw f.toSend

end RegistryMediaSender

open RegistryMediaSender in
/-- `RegistryMediaSender`. -/
def registryMediaSender (botId : Int) : TelegramMediaSender where
  sendFile := sendFile botId
  sendAlbum := sendAlbum botId
  sendText := sendText botId
  sendContact := sendContact botId
  sendPhotoUrl := sendPhotoUrl botId

/-! ## the owner's session -/

namespace MtprotoOwnerSender

/-- `_require`. -/
def require : SendScript Unit := do
  let there : Bool ← ask .session
  if there then pure ()
  else throw (.ownerTransportUnavailable "the owner's Telegram session is not connected")

/-- The id the session names, or what it is to name none. -/
def named (text : String) : Except RemoteFault (Option Int) → SendScript Int
  | .ok (some message) => pure message
  | .ok none => throw (.unconfirmedDelivery text)
  | .error f => throw f.toSend

/-- `_place`. -/
def place (form : Form) (m : OutgoingMedia) : SendScript Int := do
  require
  let r : Except RemoteFault (Option Int) ← ask (.send (.ownFile form m) none)
  named "the owner's session placed an attachment and named no id" r

/-- A sticker from a user account goes as the picture it is. -/
def sendFile (form : Form) (m : OutgoingMedia) (_replyTo : Option Int) : SendScript Int :=
  place (if form = .sticker then .photo else form) m

/-- `_grouped`. -/
def grouped (items : List OutgoingMedia) : SendScript AlbumReceipt := do
  require
  let r : Except RemoteFault (List (Option Int)) ← ask (.send (.ownAlbum (items.map (·.path))
    (items.head?.bind (·.caption)) (items.head?.bind (·.captionEntities))) none)
  match r with
  | .ok placed => do
      let ids := placed.filterMap id
      if placed.length ≠ items.length ∨ ids.length ≠ items.length then
        throw (.partialOwnerAlbum
          s!"the session placed an album of {items.length} and named {ids.length} of them")
      else do
        checkAlbumReceipt ids items.length
        pure ⟨ids, none⟩
  | .error f => throw f.toSend

/-- `_uncaptioned`. -/
def uncaptioned (m : OutgoingMedia) : OutgoingMedia :=
  { m with caption := none, captionEntities := none }

/-- The loop of `_one_at_a_time` from a part on; as many are placed already. -/
def placeFrom (total : Nat) : Nat → List OutgoingMedia → SendScript (List Int)
  | _, [] => pure []
  | index, item :: rest => do
      let message ← tryCatch
        (place (if item.kind = .video then .video else .photo)
          (if index = 0 then item else uncaptioned item))
        fun e =>
          match e with
          | .unconfirmedDelivery _ =>
              throw (.partialOwnerAlbum
                s!"part {index + 1} of {total} was placed without an id; {index} part(s) are already in the chat")
          | e => throw e
      let messages ← placeFrom total (index + 1) rest
      pure (message :: messages)

/-- `_one_at_a_time`. -/
def oneAtATime (items : List OutgoingMedia) : SendScript AlbumReceipt := do
  let ids ← placeFrom items.length 0 items
  checkAlbumReceipt ids items.length
  pure ⟨ids, none⟩

/-- `send_album`: grouped, unless a part is a video. -/
def sendAlbum (items : List OutgoingMedia) (_replyTo : Option Int) : SendScript AlbumReceipt :=
  if items.all (·.kind ≠ .video) then grouped items else oneAtATime items

/-- `send_text`. -/
def sendText (text : String) (_replyTo : Option Int) (entities : Entities) (_buttons : Buttons) :
    SendScript Int := do
  require
  let r : Except RemoteFault (Option Int) ← ask (.send (.ownMessage text entities) none)
  named "the owner's session placed a line and named no id" r

/-- `send_contact`: a line in place of a native contact. -/
def sendContact (_phone firstName : String) (lastName _vcard : Option String)
    (replyTo : Option Int) : SendScript Int :=
  let words := [firstName, lastName.getD ""].filter (· ≠ "")
  sendText (contactCard (strip (" ".intercalate words))) replyTo none none

/-- `send_photo_url`: the card stays a text. -/
def sendPhotoUrl (_url _caption : String) (_replyTo : Option Int) (_buttons : Buttons) :
    SendScript (Option Int) := pure none

end MtprotoOwnerSender

open MtprotoOwnerSender in
/-- `MtprotoOwnerSender`. -/
def mtprotoOwnerSender : TelegramMediaSender where
  sendFile := sendFile
  sendAlbum := sendAlbum
  sendText := sendText
  sendContact := sendContact
  sendPhotoUrl := sendPhotoUrl

end Telemax.Media
