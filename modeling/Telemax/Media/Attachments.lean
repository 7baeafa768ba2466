import Mathlib.Data.List.Infix
import Telemax.Routing.TextChunks

/-!
# Telemax.Media.Attachments

What a MAX message carries, and the lines the bridge writes in place of what is
not a file.  The album rule, `album_attachments`, is read twice: before the job,
for the aliases, and by the delivery.
-/

namespace Telemax.Media

inductive AttachmentKind
  | photo
  | video
  | videoNote
  | voice
  | music
  | file
  | sticker
  | contact
  | call
  | link
  | service
  | unknown
  deriving DecidableEq, Repr

namespace AttachmentKind

/-- `KIND_NAMES`. -/
def name : AttachmentKind → String
  | photo => "фото"
  | video => "видео"
  | videoNote => "кружок"
  | voice => "голосовое"
  | music => "аудио"
  | file => "файл"
  | sticker => "стикер"
  | contact => "контакт"
  | call => "звонок"
  | link => "ссылка"
  | service => "уведомление"
  | unknown => "вложение"

/-- `ALBUM_KINDS`: what can share one `sendMediaGroup`. -/
def isAlbum : AttachmentKind → Bool
  | photo | video => true
  | _ => false

end AttachmentKind

structure MaxAttachment where
  kind : AttachmentKind
  durationMs : Option Nat := none
  width : Option Int := none
  height : Option Int := none
  title : Option String := none
  performer : Option String := none
  missed : Bool := false
  callVideo : Bool := false
  notice : Option String := none
  event : Option String := none
  url : Option String := none
  contactName : Option String := none
  contactPhone : Option String := none
  contactVcard : Option String := none
  contactUserId : Option Int := none
  contactPhotoUrl : Option String := none
  /-- The sticker the raw payload names. -/
  stickerId : Option Int := none
  deriving DecidableEq, Repr

structure IncomingMaxMessage where
  isOutgoing : Bool
  attachments : List MaxAttachment
  deriving DecidableEq, Repr

/-- `album_attachments`: a lone photo or video is no album. -/
def albumAttachments (message : IncomingMaxMessage) : List MaxAttachment :=
  let album := message.attachments.filter (·.kind.isAlbum)
  if album.length < 2 then [] else album

/-- What goes out one by one. -/
def singleAttachments (message : IncomingMaxMessage) : List MaxAttachment :=
  message.attachments.filter fun item => !item.kind.isAlbum || (albumAttachments message).isEmpty

theorem isAlbum_of_mem {message : IncomingMaxMessage} {a : MaxAttachment}
    (h : a ∈ albumAttachments message) : a.kind.isAlbum = true := by
  unfold albumAttachments at h
  dsimp only at h
  split at h
  · cases h
  · exact (List.mem_filter.mp h).2

/-- Next to an album no single attachment is of an album's kind. -/
theorem not_isAlbum_of_mem {message : IncomingMaxMessage} (hne : albumAttachments message ≠ [])
    {a : MaxAttachment} (h : a ∈ singleAttachments message) : a.kind.isAlbum = false := by
  have hor := (List.mem_filter.mp h).2
  simpa [List.isEmpty_eq_false_iff.mpr hne] using hor

/-! ## texts -/

/-- `str.strip`. -/
def strip (s : String) : String :=
  String.ofList ((s.toList.dropWhile isSpace).reverse.dropWhile isSpace).reverse

/-- `CAPTION_LIMIT`. -/
def captionLimit : Nat := 1024

/-- `split_caption`: what rides along, and what follows as a message of its own. -/
def splitCaption (caption : String) : Option String × String :=
  let text := strip caption
  if text.isEmpty then (none, "")
  else if text.length ≤ captionLimit then (some text, "")
  else (none, text)

/-- The caption above a line, where there is one. -/
def above (caption : Option String) (line : String) : String :=
  let body := strip (caption.getD "")
  if body.isEmpty then line else s!"{body}\n{line}"

/-- `TOO_LARGE_NOTICE`, with the limit in megabytes. -/
def tooLargeNotice (kind : AttachmentKind) (limitBytes : Nat) : String :=
  s!"[{kind.name}: файл больше лимита в {limitBytes / 1024 / 1024} МБ]"

/-- `UNAVAILABLE_NOTICE`. -/
def unavailableNotice (kind : AttachmentKind) : String := s!"[{kind.name}: не удалось скачать]"

/-- `UNKNOWN_NOTICE`. -/
def unknownNotice : String :=
  "[MAX прислал вложение неизвестного типа — показать его пока не умею]"

/-- `link_text`. -/
def linkText (a : MaxAttachment) (caption : Option String) : String :=
  let url := strip (a.url.getD "")
  let body := strip (caption.getD "")
  if url.isEmpty then body
  else if body.isEmpty then url
  else if url.toList <:+: body.toList then body
  else s!"{body}\n{url}"

/-- `service_text`. -/
def serviceText (a : MaxAttachment) (caption : Option String) : String :=
  let notice := strip (a.notice.getD "")
  let event := strip (a.event.getD "")
  above caption
    (if notice.isEmpty then
      if event.isEmpty then "MAX: служебное уведомление"
      else s!"MAX: служебное уведомление ({event})"
    else notice)

/-- Two digits. -/
def twoDigits (n : Nat) : String := if n < 10 then s!"0{n}" else s!"{n}"

/-- `_duration_text`. -/
def durationText (seconds : Nat) : String :=
  let hours := seconds / 3600
  let minutes := seconds % 3600 / 60
  let secs := seconds % 60
  if 0 < hours then s!"{hours} ч {twoDigits minutes} мин"
  else if 0 < minutes then
    if 0 < secs then s!"{minutes} мин {twoDigits secs} с" else s!"{minutes} мин"
  else s!"{secs} с"

/-- `CALL_KINDS`: the icon, the word, and the word at the beginning of a line. -/
def callKind : Bool → String × String × String
  | false => ("📞", "аудиозвонок", "Аудиозвонок")
  | true => ("📹", "видеозвонок", "Видеозвонок")

/-- `call_text`: only an incoming call is missed. -/
def callText (a : MaxAttachment) (isOutgoing : Bool) : String :=
  let (icon, kind, title) := callKind a.callVideo
  let duration := a.durationMs.getD 0
  if a.missed || duration == 0 then
    if isOutgoing then s!"{icon} {title} без ответа" else s!"{icon} Пропущенный {kind}"
  else s!"{icon} {title} · {durationText (duration / 1000)}"

/-- `CONTACT_CARD` and `CONTACT_CARD_NAMELESS`. -/
def contactCard (name : String) : String :=
  if name.isEmpty then "👤 Контакт [Max]" else s!"👤 Контакт [Max]: {name}"

/-- `contact_card_text`. -/
def contactCardText (a : MaxAttachment) (caption : Option String) : String :=
  above caption (contactCard (strip (a.contactName.getD "")))

/-- `contact_first_last`: the first word, and the rest. -/
def contactFirstLast (a : MaxAttachment) : String × Option String :=
  let name := (strip (a.contactName.getD "")).toList
  let rest := (name.dropWhile (! isSpace ·)).dropWhile isSpace
  if name.isEmpty then ("Контакт", none)
  else (String.ofList (name.takeWhile (! isSpace ·)),
    if rest.isEmpty then none else some (String.ofList rest))

/-- `ms_to_seconds`: rounded half to even, and at least one. -/
def msToSeconds (durationMs : Option Nat) : Option Nat :=
  match durationMs with
  | none | some 0 => none
  | some ms =>
      let whole := ms / 1000
      let part := ms % 1000
      let rounded := if part < 500 || (part == 500 && whole % 2 == 0) then whole else whole + 1
      some (max 1 rounded)

end Telemax.Media
