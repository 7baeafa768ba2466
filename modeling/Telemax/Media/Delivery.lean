import Telemax.Media.Senders

/-!
# Telemax.Media.Delivery

`MaxMediaDelivery`: the attachments of one MAX message as Telegram messages, and
the four attempts of a job that goes from MAX to Telegram.  The hook `sending`
runs before the first call of the sender, whichever it is: the delivery carries
along whether it has.
-/

namespace Telemax.Media

/-- A delivery, with the flag of `_AnnouncesFirstSend`. -/
abbrev Delivering := StateT Bool SendScript

/-- A call of the sender, announced if it is the first. -/
def announcing {α : Type} (x : SendScript α) : Delivering α := fun announced => do
  if announced then
    let a ← x
    pure (a, true)
  else
    let r : Except Fault Unit ← ask .sending
    match r with
    | .ok () => do
        let a ← x
        pure (a, true)
    | .error f => throw f.toSend

/-- An exception, out of a delivery. -/
def raise {α : Type} (e : SendError) : Delivering α := fun _ => throw e

structure DeliveredPart where
  telegramMessageId : Int
  kind : AttachmentKind
  partIndex : Nat
  deriving DecidableEq, Repr

structure DeliveryReceipt where
  head : Option Int := none
  album : List DeliveredPart := []
  mediaGroupId : Option String := none
  deriving DecidableEq, Repr

/-- `a or b`, for message ids. -/
def orId (a b : Option Int) : Option Int :=
  match a with
  | some message => if message = 0 then b else some message
  | none => b

/-- `_describe`. -/
def describe (a : MaxAttachment) (file : LocalFile) (caption : Option String)
    (entities : Entities) (thumbnail : Option String) : OutgoingMedia where
  kind := a.kind
  path := file.path
  fileName := file.displayName
  caption := caption
  captionEntities := entities
  durationSeconds := msToSeconds a.durationMs
  width := a.width
  height := a.height
  title := a.title
  performer := a.performer
  thumbnail := thumbnail

/-- The form `_dispatch` picks for a kind. -/
def formOf : AttachmentKind → Form
  | .photo => .photo
  | .video => .video
  | .videoNote => .videoNote
  | .voice => .voice
  | .music => .audio
  | .sticker => .sticker
  | _ => .document

/-- `_cover`: only a video gets one. -/
def cover (a : MaxAttachment) (file : LocalFile) : SendScript (Option String) :=
  match a.kind with
  | .video | .videoNote => do
      let r : Except Fault (Option String) ← ask (.cover file.path)
      match r with
      | .ok thumbnail => pure thumbnail
      | .error f => throw f.toSend
  | _ => pure none

/-- What is raised for an attachment that did not come. -/
def FetchError.toSend : FetchError → SendError
  | tooLarge limit => .other "MediaTooLargeError" s!"file is larger than the {limit / 1024 / 1024} MB limit"
  | unavailable _ text => .other "UnavailableMediaError" text
  | fault f => f.toSend

structure MaxMediaDelivery where
  sender : TelegramMediaSender
  limitBytes : Nat
  /-- Are sticker origins remembered? -/
  stickerOrigins : Bool
  bridgeLink : Option (Int → Option String)

namespace MaxMediaDelivery

variable (d : MaxMediaDelivery)

/-- `_note_sticker_origin`: a convenience, only a cancellation is passed on. -/
def noteStickerOrigin (a : MaxAttachment) (file : LocalFile) : SendScript Unit :=
  match (if d.stickerOrigins && a.kind = .sticker then a.stickerId else none) with
  | none => pure ()
  | some stickerId => do
      let r : Except Fault Unit ← ask (.noteOrigin file.path stickerId)
      match r with
      | .error .cancelled => throw .cancelled
      | _ => pure ()

/-- `_dispatch`. -/
def dispatch (m : OutgoingMedia) (replyTo : Option Int) : Delivering Int := do
  let sent ← announcing (d.sender.sendFile (formOf m.kind) m replyTo)
  match (if m.kind = .sticker then m.caption.filter (· ≠ "") else none) with
  | none => pure sent
  | some caption => do
      let _ ← announcing
        (d.sender.sendText caption (orId (some sent) replyTo) m.captionEntities none)
      pure sent

/-- The loop of `_send_album`: what is too large is named in a line of its own. -/
def gather (caption : Option String) (entities : Entities) (replyTo : Option Int) :
    List MaxAttachment → List OutgoingMedia → Delivering (List OutgoingMedia)
  | [], items => pure items
  | a :: rest, items => do
      let r : Except FetchError LocalFile ← ask (.fetch a)
      match r with
      | .ok file => do
          let thumbnail ← cover a file
          gather caption entities replyTo rest (items ++ [describe a file
            (if items.isEmpty then caption else none) (if items.isEmpty then entities else none)
            thumbnail])
      | .error (.tooLarge _) => do
          let _ ← announcing (d.sender.sendText (tooLargeNotice a.kind d.limitBytes) replyTo none none)
          gather caption entities replyTo rest items
      | .error e => raise e.toSend

/-- The items of a group, each with the id of its message. -/
def partsOf (ids : List Int) (items : List OutgoingMedia) : List DeliveredPart :=
  (ids.zip items).zipIdx.map fun x => ⟨x.1.1, x.1.2.kind, x.2⟩

/-- `_send_album`. -/
def sendAlbum (attachments : List MaxAttachment) (caption : Option String) (entities : Entities)
    (replyTo : Option Int) : Delivering (List DeliveredPart × Option String) := do
  let items ← gather d caption entities replyTo attachments []
  match items with
  | [] => pure ([], none)
  | [item] => do
      let sent ← dispatch d item replyTo
      pure ([⟨sent, item.kind, 0⟩], none)
  | items => do
      let receipt ← announcing (d.sender.sendAlbum items replyTo)
      if receipt.messageIds.length ≠ items.length then
        raise (.other "ValueError" "zip() arguments differ in length")
      else pure (partsOf receipt.messageIds items, receipt.mediaGroupId)

/-- A shared contact: a real one where there is a phone, else a card. -/
def sendContact (a : MaxAttachment) (caption : Option String) (entities : Entities)
    (replyTo : Option Int) : Delivering Int :=
  match a.contactPhone.filter (· ≠ "") with
  | some phone =>
      let name := contactFirstLast a
      announcing (d.sender.sendContact phone name.1 name.2 a.contactVcard replyTo)
  | none =>
      let link := (a.contactUserId.bind fun user => d.bridgeLink.bind (· user)).filter (· ≠ "")
      let buttons : Buttons := link.map fun link => [("Поднять мост", link)]
      let card := contactCardText a caption
      match a.contactPhotoUrl.filter (· ≠ "") with
      | some url => do
          let shown ← announcing (d.sender.sendPhotoUrl url card replyTo buttons)
          match shown with
          | some message => pure message
          | none => announcing (d.sender.sendText card replyTo entities buttons)
      | none => announcing (d.sender.sendText card replyTo entities buttons)

/-- What is behind a file: it is fetched, and what is missing for good is named. -/
def sendFile (a : MaxAttachment) (caption : Option String) (entities : Entities)
    (replyTo : Option Int) : Delivering Int := do
  let r : Except FetchError LocalFile ← ask (.fetch a)
  match r with
  | .ok file => do
      let thumbnail ← cover a file
      let sent ← dispatch d (describe a file caption entities thumbnail) replyTo
      noteStickerOrigin d a file
      pure sent
  | .error (.tooLarge limit) =>
      announcing (d.sender.sendText (tooLargeNotice a.kind limit) replyTo none none)
  | .error (.unavailable code text) =>
      if code = "source_missing" then
        announcing (d.sender.sendText (unavailableNotice a.kind) replyTo none none)
      else raise (FetchError.unavailable code text).toSend
  | .error (.fault f) => raise f.toSend

/-- `_send_one`. -/
def sendOne (isOutgoing : Bool) (a : MaxAttachment) (caption : Option String) (entities : Entities)
    (replyTo : Option Int) : Delivering Int :=
  match a.kind with
  | .link => announcing (d.sender.sendText (linkText a caption) replyTo entities none)
  | .service => announcing (d.sender.sendText (serviceText a caption) replyTo none none)
  | .call => announcing (d.sender.sendText (callText a isOutgoing) replyTo none none)
  | .contact => sendContact d a caption entities replyTo
  | .unknown => announcing (d.sender.sendText (above caption unknownNotice) replyTo entities none)
  | _ => sendFile d a caption entities replyTo

/-- The loop over what goes out one by one; the caption rides on the first. -/
def sendSingles (isOutgoing : Bool) (replyTo : Option Int) :
    List MaxAttachment → Option String → Entities → Option Int → Delivering (Option Int)
  | [], _, _, first => pure first
  | a :: rest, caption, entities, first => do
      let sent ← sendOne d isOutgoing a caption entities (if first.isNone then replyTo else none)
      sendSingles isOutgoing replyTo rest none none (first.or (some sent))

/-- The part of a caption that does not ride along. -/
def sendTail (tail : String) (replyTo first : Option Int) : Delivering (Option Int) :=
  if tail.isEmpty then pure first
  else do
    let sent ← announcing (d.sender.sendText tail (orId first replyTo) none none)
    pure (first.or (some sent))

/-- `deliver_receipt`. -/
def deliverReceipt (message : IncomingMaxMessage) (caption : String) (entities : Entities)
    (replyTo : Option Int) : Delivering DeliveryReceipt := do
  let album := albumAttachments message
  let (headCaption, tail) := splitCaption caption
  let (parts, group) ← (if album.isEmpty then pure ([], none)
    else sendAlbum d album headCaption entities replyTo :
      Delivering (List DeliveredPart × Option String))
  let used := !album.isEmpty
  let first ← sendSingles d message.isOutgoing replyTo (singleAttachments message)
    (if used then none else headCaption) (if used then none else entities)
    (parts.head?.map (·.telegramMessageId))
  let first ← sendTail d tail replyTo first
  pure ⟨first, parts, group⟩

end MaxMediaDelivery

/-! ## the mapping -/

/-- `_album_parts`. -/
def albumParts (album : List DeliveredPart) : Receipt :=
  album.map fun part => (Int.ofNat part.partIndex, part.telegramMessageId)

/-- An album's settlement; a refusal is a question for the owner. -/
def settleAlbumOf (column : IdColumn) (link : Nat) (album : List DeliveredPart) :
    SendScript Unit := do
  let r : Except Fault (Option AlbumSettlementError) ←
    ask (.settleAlbum column link (albumParts album))
  match r with
  | .ok none => pure ()
  | .ok (some error) => throw (.unconfirmedDelivery error.text)
  | .error f => throw f.toSend

/-- `settle_telegram_delivery_mapping`. -/
def settleTelegramDeliveryMapping (link : Option Nat) (sent : Int) (album : List DeliveredPart) :
    SendScript Int :=
  match link with
  | none => pure sent
  | some link =>
      if album.isEmpty then do
        let r : Except Fault Unit ← ask (.attachTelegram link sent)
        match r with
        | .ok () => pure sent
        | .error f => throw f.toSend
      else do
        settleAlbumOf .bot link album
        pure sent

/-- `settle_owner_delivery_mapping`. -/
def settleOwnerDeliveryMapping (link : Option Nat) (account : Option Int) (sent : Int)
    (album : List DeliveredPart) : SendScript Int :=
  match link with
  | none => pure sent
  | some link =>
      if album.isEmpty then do
        let r : Except Fault Unit ← ask (.attachOwner link account sent)
        match r with
        | .ok () => pure sent
        | .error f => throw f.toSend
      else do
        settleAlbumOf (.owner (account.getD 0)) link album
        pure sent

/-! ## attempts -/

/-- `await sending()`. -/
def mark : SendScript Unit := do
  let r : Except Fault Unit ← ask .sending
  match r with
  | .ok () => pure ()
  | .error f => throw f.toSend

/-- What the media attempts are wired with. -/
structure Wiring where
  limitBytes : Nat
  stickerOrigins : Bool
  bridgeLink : Option (Int → Option String)

def Wiring.delivery (w : Wiring) (sender : TelegramMediaSender) : MaxMediaDelivery :=
  ⟨sender, w.limitBytes, w.stickerOrigins, w.bridgeLink⟩

/-- One attempt of a job that goes from MAX to Telegram, by its payload. -/
inductive Attempt
  | text (bot : Int) (text : String) (entities : Entities) (replyTo : Option Int)
      (link : Option Nat)
  | media (bot : Int) (message : IncomingMaxMessage) (caption : String) (entities : Entities)
      (replyTo : Option Int) (link : Option Nat)
  | ownerText (text : String) (entities : Entities) (account : Option Int) (link : Option Nat)
  | ownerMedia (message : IncomingMaxMessage) (caption : String) (entities : Entities)
      (account : Option Int) (link : Option Nat)

namespace Attempt

def kind : Attempt → JobKind
  | text .. => .maxToTgText
  | media .. => .maxToTgMedia
  | ownerText .. | ownerMedia .. => .maxToTgOwner

/-- `max_to_tg_text`, over `RegistrySender`. -/
def runText (bot : Int) (text : String) (entities : Entities) (replyTo : Option Int)
    (link : Option Nat) : SendScript Int := do
  mark
  RegistryMediaSender.bot bot
  let r : Except RemoteFault (Option Int) ← ask (.send (.message text entities none) replyTo)
  match r with
  | .ok (some sent) => settleTelegramDeliveryMapping link sent []
  | .ok none => throw (.unconfirmedDelivery "Telegram returned no message id")
  | .error f => throw f.toSend

/-- A receipt without a head is none. -/
def headOf (text : String) (receipt : DeliveryReceipt) : SendScript Int :=
  match receipt.head with
  | some head => pure head
  | none => throw (.unconfirmedDelivery text)

/-- `max_to_tg_media`. -/
def runMedia (w : Wiring) (bot : Int) (message : IncomingMaxMessage) (caption : String)
    (entities : Entities) (replyTo : Option Int) (link : Option Nat) : SendScript Int := do
  let (receipt, _) ←
    ((w.delivery (registryMediaSender bot)).deliverReceipt message caption entities replyTo).run
      false
  let head ← headOf "Telegram returned no message id for the attachments" receipt
  settleTelegramDeliveryMapping link head receipt.album

/-- `_seed_placed_baseline`: it never fails the delivery. -/
def seedPlacedBaseline (message : Int) : SendScript Unit := do
  let r : Except Fault Unit ← ask (.seedBaseline message)
  match r with
  | .error .cancelled => throw .cancelled
  | _ => pure ()

/-- `place_owner_message`, for a text. -/
def runOwnerText (text : String) (entities : Entities) (account : Option Int)
    (link : Option Nat) : SendScript Int := do
  mark
  MtprotoOwnerSender.require
  let r : Except RemoteFault (Option Int) ← ask (.send (.ownMessage text entities) none)
  let placed ← MtprotoOwnerSender.named "the owner's session returned no message id" r
  seedPlacedBaseline placed
  settleOwnerDeliveryMapping link account placed []

/-- `place_owner_message`, for attachments. -/
def runOwnerMedia (w : Wiring) (message : IncomingMaxMessage) (caption : String)
    (entities : Entities) (account : Option Int) (link : Option Nat) : SendScript Int := do
  let (receipt, _) ←
    ((w.delivery mtprotoOwnerSender).deliverReceipt message caption entities none).run false
  let head ← headOf "the owner's session returned no message id for the attachments" receipt
  settleOwnerDeliveryMapping link account head receipt.album

def run (w : Wiring) : Attempt → SendScript Int
  | text bot body entities replyTo link => runText bot body entities replyTo link
  | media bot message caption entities replyTo link =>
      runMedia w bot message caption entities replyTo link
  | ownerText body entities account link => runOwnerText body entities account link
  | ownerMedia message caption entities account link =>
      runOwnerMedia w message caption entities account link

end Attempt

end Telemax.Media
