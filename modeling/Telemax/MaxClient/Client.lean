import Telemax.Lib.Script
import Telemax.Routing.Settlement

/-!
# Telemax.MaxClient.Client

The calls of `MaxClient` that create a message, as scripts over what they ask of
the outside: the session, the frames, the uploads, the sticker tables and the
disk.  Only op64 and PyMax's own `send_message` create; everything before them is
preparation.

The shared boundary is `_run_creating_call`.  A sticker is prepared outside it,
by its origin, from the cache or anew, and a native voice or circle too, with a
plain attachment for what falls short of a message.
-/

namespace Telemax.MaxClient

/-! ## the outside -/

/-- Why an awaited call did not come back, other than by an answer of MAX. -/
inductive Fault
  | cancelled
  | other (name text : String)
  deriving DecidableEq, Repr

inductive CallError
  | api (error : ApiError)
  | fault (f : Fault)
  deriving DecidableEq, Repr

/-- The id in an answer, as it is found there. -/
inductive RawId
  | missing
  | unreadable
  | number (n : Int)
  deriving DecidableEq, Repr

/-- `int(raw)`, if it names a message. -/
def RawId.usable : RawId → Option Int
  | number n => if n ≤ 0 then none else some n
  | _ => none

inductive MediaKind
  | photo
  | video
  | file
  | sticker
  | voice
  | circle
  deriving DecidableEq, Repr

def MediaKind.name : MediaKind → String
  | photo => "photo"
  | video => "video"
  | file => "file"
  | sticker => "sticker"
  | voice => "voice"
  | circle => "circle"

structure Item where
  kind : MediaKind
  path : String
  name : String
  deriving DecidableEq, Repr

/-- The attaches the bridge builds itself. -/
inductive Attach
  | contact (vcfBody : String) (contactId : Option Int)
  | sticker (stickerId : Int)
  /-- `voice_attach`. -/
  | audio (duration : Int) (wave token : String)
  /-- `circle_attach`; `videoType` is 1. -/
  | video (duration : Int) (wave token : String)
  deriving DecidableEq, Repr

/-- The body of an op64 frame. -/
structure MessageFrame where
  chatId : Int
  attach : Attach
  text : String := ""
  replyTo : Option Int := none
  notify : Bool := true
  deriving DecidableEq, Repr

inductive UploadType
  | video
  | audio
  deriving DecidableEq, Repr

inductive Frame
  | stickerUpload
  | stickerCreate (token : String)
  | mediaUpload (type : UploadType)
  | messageSend (m : MessageFrame)
  deriving DecidableEq, Repr

/-- What `urlsplit` makes of an upload URL. -/
structure UrlParts where
  scheme : String
  userinfo : Bool
  hostname : Option String
  /-- `none` inside: no port; outside: not a number. -/
  port : Option (Option Nat)
  path : String
  deriving DecidableEq, Repr

structure UploadUrl where
  text : String
  parts : Option UrlParts
  deriving DecidableEq, Repr

/-- The answer to op82: the slot it names, and how it looks in a message. -/
structure MediaSlot where
  url : Option UploadUrl
  token : Option String
  keys : String
  deriving DecidableEq, Repr

/-- An answer, how it looks in a message, and what is read out of it. -/
structure Answer (α : Type) where
  shown : String
  value : Option α
  deriving DecidableEq, Repr

/-- The body of the answer to a sticker upload. -/
inductive StickerBody
  | unreadable (text : String)
  | noToken (text : String)
  | token (t : String)
  deriving DecidableEq, Repr

/-- What a file attach is handed to PyMax as. -/
inductive Builder
  | photo
  | video
  | file
  deriving DecidableEq, Repr

structure Attachment where
  builder : Builder
  path : String
  name : String
  deriving DecidableEq, Repr

/-- What `NativeMediaState` is told. -/
inductive NativeNote
  | attempt (kind : MediaKind)
  | success (kind : MediaKind)
  | ordinaryFallback (kind : MediaKind)
  | unconfirmed (kind : MediaKind)
  | uploaderDrift (kind : MediaKind)
  | trip (kind : MediaKind) (reason : String)
  deriving DecidableEq, Repr

inductive Call
  /-- `_require`. -/
  | connected
  | invoke (f : Frame)
  /-- PyMax's `send_message`. -/
  | sendMessage (chatId : Int) (text : String) (replyTo : Option Int)
      (attachments : List Attachment)
  /-- The hash of a file, and the sticker it came out of MAX as. -/
  | stickerOrigin (path : String)
  | renderSticker (path : String)
  | cachedSticker (digest : String)
  | cacheSticker (digest : String) (stickerId : Int)
  /-- The multipart POST of `_post_sticker`. -/
  | postSticker (url png : String)
  | readBytes (path : String)
  | probeMedia (path : String) (kind : MediaKind)
  /-- The POST of `_post_media`; the status and the body come back. -/
  | postMedia (url data name : String)
  | native (note : NativeNote)
  deriving DecidableEq, Repr

abbrev Frame.Reply : Frame → Type
  | .stickerUpload => Answer String
  | .stickerCreate _ => Answer Int
  | .mediaUpload _ => MediaSlot
  | .messageSend _ => RawId

abbrev Call.Outcome : Call → Type
  | .connected => Bool
  | .invoke f => Except CallError f.Reply
  | .sendMessage .. => Except CallError RawId
  | .stickerOrigin _ => Except Fault (Option Int)
  | .renderSticker _ => Except Fault (String × String)
  | .cachedSticker _ => Except Fault (Option Int)
  | .cacheSticker .. => Except Fault Unit
  | .postSticker .. => Except Fault StickerBody
  | .readBytes _ => Except Fault String
  | .probeMedia .. => Except Fault (Int × String)
  | .postMedia .. => Except Fault (Nat × String)
  | .native _ => Unit

/-! ## errors -/

/-- What the client raises. -/
inductive MaxError
  | send (e : SendError)
  /-- `MaxStickerError`. -/
  | sticker (text : String)
  /-- `MaxMediaError`. -/
  | media (text : String)
  /-- `MaxNativeRejectedError`, a `MaxMediaError`. -/
  | nativeRejected (text : String)
  deriving DecidableEq, Repr

namespace MaxError

/-- As `settle` meets it. -/
def toSend : MaxError → SendError
  | send e => e
  | sticker text => .other "MaxStickerError" text
  | media text => .other "MaxMediaError" text
  | nativeRejected text => .other "MaxNativeRejectedError" text

def ofFault : Fault → MaxError
  | .cancelled => send .cancelled
  | .other name text => send (.other name text)

def ofCall : CallError → MaxError
  | .api error => send (.api error)
  | .fault f => ofFault f

end MaxError

abbrev MaxScript := Script Call.Outcome MaxError

def ask (c : Call) : MaxScript c.Outcome := Script.query c

/-- The answer of MAX, or its error. -/
def answered {α : Type} (x : MaxScript (Except CallError α)) : MaxScript α := do
  Script.orThrow MaxError.ofCall (← x)

/-- What a call that is not for MAX brings. -/
def fetched {α : Type} (x : MaxScript (Except Fault α)) : MaxScript α := do
  Script.orThrow MaxError.ofFault (← x)

/-- `_require`. -/
def require : MaxScript Unit := do
  let connected : Bool ← ask .connected
  if !connected then
    throw (.send (.maxClient "MaxClientError" "MAX client is not connected"))

/-- `_invoke`. -/
def invoke (f : Frame) : MaxScript f.Reply := do
  require
  answered (ask (.invoke f))

/-- `_run_creating_call`. -/
def runCreatingCall (what : String) (call : MaxScript RawId)
    (onApiError : ApiError → MaxScript Unit) (onUnconfirmed : MaxScript Unit) : MaxScript Int := do
  require
  let raw ← tryCatch call fun
    | .send (.api error) => do
        onApiError error
        throw (.send (.api error))
    | .send (.maxClient name text) => throw (.send (.maxClient name text))
    | .send .cancelled => throw (.send .cancelled)
    | error => do
        onUnconfirmed
        throw (.send (.maxUnconfirmedSend
          (s!"the {what} send went out and MAX did not answer "
            ++ s!"({error.toSend.typeName}); it may be in the chat")))
  match raw.usable with
  | some messageId => pure messageId
  | none => do
      onUnconfirmed
      throw (.send (.maxUnconfirmedSend
        s!"MAX answered the {what} send without a usable message id"))

/-- No `on_api_error`. -/
def noApiError (_ : ApiError) : MaxScript Unit := pure ()

def sendMessage (chatId : Int) (text : String) (replyTo : Option Int)
    (attachments : List Attachment) : MaxScript RawId := do
  answered (ask (.sendMessage chatId text replyTo attachments))

/-- `send_text`. -/
def sendText (chatId : Int) (text : String) (replyTo : Option Int) : MaxScript Int := do
  require
  runCreatingCall "text" (sendMessage chatId text replyTo []) noApiError (pure ())

/-- `if reply_to`: no reply to a message 0. -/
def truthy (replyTo : Option Int) : Option Int := replyTo.filter (· ≠ 0)

/-- `send_contact`. -/
def sendContact (chatId : Int) (vcard : String) (contactUserId replyTo : Option Int) :
    MaxScript Int :=
  runCreatingCall "contact"
    (invoke (.messageSend
      { chatId, attach := .contact vcard contactUserId, replyTo := truthy replyTo }))
    noApiError (pure ())

/-- `send_sticker`. -/
def sendSticker (chatId stickerId : Int) (text : String) : MaxScript Int :=
  runCreatingCall "sticker"
    (invoke (.messageSend { chatId, attach := .sticker stickerId, text, notify := false }))
    noApiError (pure ())

/-! ## stickers -/

/-- `body[:200]`. -/
def clip (body : String) : String := String.ofList (body.toList.take 200)

/-- `_post_sticker`. -/
def postSticker (url png : String) : MaxScript String := do
  let body : StickerBody ← fetched (ask (.postSticker url png))
  match body with
  | .unreadable body => throw (.sticker s!"sticker upload refused: {clip body}")
  | .noToken body => throw (.sticker s!"sticker upload returned no token: {clip body}")
  | .token t => pure t

/-- The slot of op81. -/
def stickerSlot : MaxScript String := do
  let slot : Answer String ← invoke .stickerUpload
  match slot.value.filter (· ≠ "") with
  | none => throw (.sticker s!"no sticker upload slot: {slot.shown}")
  | some url => pure url

/-- The sticker op193 makes. -/
def stickerCreated (token : String) : MaxScript Int := do
  let created : Answer Int ← invoke (.stickerCreate token)
  match created.value with
  | none => throw (.sticker s!"sticker was not created: {created.shown}")
  | some stickerId => pure stickerId

/-- `create_sticker`. -/
def createSticker (png : String) : MaxScript Int := do
  let url ← stickerSlot
  let token ← postSticker url png
  stickerCreated token

/-- What the client was built with. -/
structure Client where
  /-- A table of stickers that came out of MAX, and a cache of those made. -/
  stickerOrigins : Bool
  stickers : Bool
  /-- `NativeMediaState.allows`, for a voice and for a circle. -/
  allowsVoice : Bool
  allowsCircle : Bool
  deriving DecidableEq, Repr

def Client.allows (c : Client) : MediaKind → Bool
  | .voice => c.allowsVoice
  | .circle => c.allowsCircle
  | _ => false

def knownOrigin (c : Client) (source : String) : MaxScript (Option Int) :=
  if c.stickerOrigins then fetched (ask (.stickerOrigin source)) else pure none

def cachedSticker (c : Client) (digest : String) : MaxScript (Option Int) :=
  if c.stickers then fetched (ask (.cachedSticker digest)) else pure none

def cacheSticker (c : Client) (digest : String) (stickerId : Int) : MaxScript Unit :=
  if c.stickers then fetched (ask (.cacheSticker digest stickerId)) else pure ()

/-- The sticker of a picture: reused, or made. -/
def stickerFor (c : Client) (source : String) : MaxScript Int := do
  let rendered : String × String ← fetched (ask (.renderSticker source))
  match ← cachedSticker c rendered.2 with
  | some stickerId => pure stickerId
  | none => do
      let stickerId ← createSticker rendered.1
      cacheSticker c rendered.2 stickerId
      pure stickerId

/-- `_send_one_sticker`. -/
def sendOneSticker (c : Client) (chatId : Int) (source text : String) : MaxScript Int := do
  match ← knownOrigin c source with
  | some stickerId => sendSticker chatId stickerId text
  | none => do
      let stickerId ← stickerFor c source
      sendSticker chatId stickerId text

/-! ## native media -/

/-- `UPLOAD_ENDPOINTS`. -/
def uploadEndpoint : MediaKind → Option (String × String)
  | .voice => some ("au.oneme.ru", "/uploadAudio")
  | .circle => some ("vu.oneme.ru", "/uploadVideo")
  | _ => none

/-- `repr` of a host. -/
def shown : Option String → String
  | some host => s!"'{host}'"
  | none => "None"

/-- `check_upload_url`: why the URL is not one this kind may upload to. -/
def checkUploadUrl (kind : MediaKind) (url : UploadUrl) : Option String :=
  match uploadEndpoint kind with
  | none => some s!"{kind.name} has no native upload endpoint"
  | some (host, path) =>
      match url.parts with
      | none => some s!"{kind.name}: unparseable upload URL"
      | some parts =>
          if parts.scheme ≠ "https" then some s!"{kind.name}: upload URL is not https"
          else if parts.userinfo then some s!"{kind.name}: upload URL carries userinfo"
          else if parts.hostname ≠ some host then
            some s!"{kind.name}: upload host is {shown parts.hostname}, not '{host}'"
          else
            match parts.port with
            | none => some s!"{kind.name}: upload URL has an unreadable port"
            | some port =>
                if port ≠ none && port ≠ some 443 then
                  some s!"{kind.name}: upload URL uses port {port.getD 0}"
                else if parts.path ≠ path then
                  some s!"{kind.name}: upload path is '{parts.path}', not '{path}'"
                else none

def note (n : NativeNote) : MaxScript Unit := ask (.native n)

/-- `_post_media`. -/
def postMedia (url data name : String) : MaxScript Unit := do
  let response : Nat × String ← fetched (ask (.postMedia url data name))
  if 300 ≤ response.1 && response.1 < 400 then
    throw (.media (s!"media upload answered {response.1}: the uploader redirected, "
      ++ "which the captured flow never does"))
  else if response.1 ≠ 200 then
    throw (.media s!"media upload refused ({response.1}): {clip response.2}")
  else pure ()

/-- The breaker of `_invoke_native_send`: a refusal of the attach itself. -/
def breaker (kind : MediaKind) (error : ApiError) : MaxScript Unit := do
  let verdict := classifyMaxError error
  if verdict.kind = .schema then
    note (.trip kind verdict.reason)
    throw (.nativeRejected s!"MAX refused the {kind.name} attach: {verdict.reason}")

/-- `_invoke_native_send`. -/
def invokeNativeSend (kind : MediaKind) (m : MessageFrame) : MaxScript Int :=
  runCreatingCall kind.name (invoke (.messageSend m)) (breaker kind) (note (.unconfirmed kind))

/-- The slot of op82: its URL and its token. -/
def uploadSlot (kind : MediaKind) : MaxScript (UploadUrl × String) := do
  let slot : MediaSlot ← invoke (.mediaUpload (if kind = .voice then .audio else .video))
  match slot.url.filter (·.text ≠ ""), slot.token.filter (· ≠ "") with
  | some url, some token => pure (url, token)
  | _, _ =>
      throw (.media s!"no {kind.name} upload slot: op82 answered {slot.keys} with no usable url/token")

def checkUploader (kind : MediaKind) (url : UploadUrl) : MaxScript Unit :=
  match checkUploadUrl kind url with
  | some reason => do
      note (.uploaderDrift kind)
      throw (.media s!"{kind.name}: {reason}, not sending natively")
  | none => pure ()

/-- The upload, up to what op64 is then told: the duration, the wave and the token. -/
def prepareNative (kind : MediaKind) (source name : String) : MaxScript (Int × String × String) := do
  let slot ← uploadSlot kind
  checkUploader kind slot.1
  let data : String ← fetched (ask (.readBytes source))
  let probed : Int × String ← fetched (ask (.probeMedia source kind))
  if probed.1 ≤ 0 || probed.2 = "" then
    throw (.media s!"{kind.name}: no duration/waveform for '{name}', not sending natively")
  else do
    postMedia slot.1.text data name
    pure (probed.1, probed.2, slot.2)

/-- `_send_native_media`. -/
def sendNativeMedia (kind : MediaKind) (chatId : Int) (source name : String)
    (replyTo : Option Int) : MaxScript Int := do
  let media ← prepareNative kind source name
  let attach := if kind = .voice then Attach.audio media.1 media.2.1 media.2.2
    else Attach.video media.1 media.2.1 media.2.2
  invokeNativeSend kind { chatId, attach, replyTo := truthy replyTo }

/-! ## media -/

/-- `builders`. -/
def builderOf : MediaKind → Builder
  | .photo => .photo
  | .video | .circle => .video
  | _ => .file

/-- The files as plain attachments, in one message. -/
def sendPlain (chatId : Int) (items : List Item) (text : String) (replyTo : Option Int) :
    MaxScript Int :=
  runCreatingCall "media"
    (sendMessage chatId text replyTo
      (items.map fun item => ⟨builderOf item.kind, item.path, item.name⟩))
    noApiError (pure ())

/-- A voice or a circle, with the plain attachment for what stops short of a message. -/
def sendNativeOrPlain (chatId : Int) (item : Item) (text : String) (replyTo : Option Int) :
    MaxScript Int := do
  note (.attempt item.kind)
  let sent ← tryCatch (some <$> sendNativeMedia item.kind chatId item.path item.name replyTo) fun
    | .nativeRejected _ => do
        note (.ordinaryFallback item.kind)
        pure none
    | .media _ => do
        note (.ordinaryFallback item.kind)
        pure none
    | error => throw error
  match sent with
  | some messageId => do
      note (.success item.kind)
      pure messageId
  | none => sendPlain chatId [item] text replyTo

/-- `send_media`. -/
def sendMedia (c : Client) (chatId : Int) (items : List Item) (text : String)
    (replyTo : Option Int) : MaxScript Int := do
  require
  if items.any (·.kind = .sticker) then
    match items with
    | [item] => sendOneSticker c chatId item.path text
    | _ => throw (.sticker "a sticker cannot be sent alongside other attachments")
  else if items.any (c.allows ·.kind) then
    match items with
    | [item] => sendNativeOrPlain chatId item text replyTo
    | _ => throw (.media "a voice or video note cannot be sent alongside other media")
  else sendPlain chatId items text replyTo

end Telemax.MaxClient
