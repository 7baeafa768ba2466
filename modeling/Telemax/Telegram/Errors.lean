import Mathlib.Data.List.Infix

/-!
# Telemax.Telegram.Errors

What one Telegram failure means, read in one place.  The distinction is between
kinds of evidence: either the server answered — and then the request created
nothing — or it stayed silent, and the request may have been carried out.
-/

namespace Telemax

/-- The failures of the two Telegram transports, by class, each with its text. -/
inductive TelegramError
  | transportUnavailable (text : String)
  | retryAfter (seconds : Nat) (text : String)
  | floodWait (seconds : Nat) (text : String)
  | badRequest (text : String)
  | notFound (text : String)
  | forbidden (text : String)
  | unauthorized (text : String)
  | conflict (text : String)
  | entityTooLarge (text : String)
  | network (text : String)
  | server (text : String)
  /-- Any other exception that reaches the classifier. -/
  | other (name text : String)
  deriving DecidableEq, Repr

namespace TelegramError

/-- `type(error).__name__`. -/
def typeName : TelegramError → String
  | transportUnavailable _ => "TelegramTransportUnavailableError"
  | retryAfter _ _ => "TelegramRetryAfter"
  | floodWait _ _ => "FloodWaitError"
  | badRequest _ => "TelegramBadRequest"
  | notFound _ => "TelegramNotFound"
  | forbidden _ => "TelegramForbiddenError"
  | unauthorized _ => "TelegramUnauthorizedError"
  | conflict _ => "TelegramConflictError"
  | entityTooLarge _ => "TelegramEntityTooLarge"
  | network _ => "TelegramNetworkError"
  | server _ => "TelegramServerError"
  | other name _ => name

/-- `str(error)`. -/
def text : TelegramError → String
  | transportUnavailable t | retryAfter _ t | floodWait _ t | badRequest t | notFound t
  | forbidden t | unauthorized t | conflict t | entityTooLarge t | network t | server t
  | other _ t => t

end TelegramError

inductive TelegramOutcome
  | noAnswer
  | rateLimited
  | refusedRepresentation
  | refusedGroup
  | noOp
  | refusedEditForm
  | refused
  | notSent
  deriving DecidableEq, Repr

structure TelegramVerdict where
  outcome : TelegramOutcome
  detail : String
  retryAfterMs : Nat := 0
  deriving DecidableEq, Repr

def msPerSecond : Nat := 1000

/-- One character of `str.lower`; the Kelvin sign is the only character outside
ASCII whose lower case is an ASCII letter. -/
def lowerChar (c : Char) : Char := if c = '\u212a' then 'k' else c.toLower

/-- `str.lower`, as the characters a marker is searched in. -/
def lower (s : String) : List Char := s.toList.map lowerChar

def representationMarkers : List String :=
  ["photo_invalid_dimensions", "photo_ext_invalid", "photo_content_type_invalid",
   "photo_save_file_invalid", "photo_crop_size_small", "image_process_failed",
   "photo dimensions", "sticker_png_dimensions", "sticker_png_nopng",
   "sticker_tgs_notgzip", "sticker_video_nowebm", "sticker_file_invalid",
   "sticker_emoji_invalid", "wrong sticker file", "sticker must be",
   "video_file_invalid", "video_content_type_invalid", "videonote_size_invalid",
   "wrong type of file", "wrong file type", "unsupported file type",
   "type of file mismatch", "wrong padding", "failed to get http url content",
   "wrong file identifier/http url specified", "wrong remote file identifier",
   "webpage_curl_failed", "webpage_media_empty"]

def groupMarkers : List String :=
  ["media_group_invalid", "group send failed", "in the same media group", "media group"]

def editFormMarkers : List String :=
  ["there is no text in the message to edit", "there is no caption in the message to edit",
   "message_no_edit_time"]

def noOpMarkers : List String :=
  ["message is not modified", "message to edit not found", "message to delete not found",
   "message_id_invalid", "message identifier is not specified"]

/-- `_matches`: the first marker that occurs in the description. -/
def matchesMarker (description : List Char) (markers : List String) : Option String :=
  markers.find? fun marker => decide (marker.toList <:+: description)

/-- How a bad request is read: the first of the four marker tables that matches
its lowercased text, else a flat refusal. -/
def classifyBadRequest (text : String) : TelegramVerdict :=
  let description := lower text
  match matchesMarker description noOpMarkers with
  | some marker => { outcome := .noOp, detail := s!"target is already there: {marker}" }
  | none =>
  match matchesMarker description editFormMarkers with
  | some marker =>
      { outcome := .refusedEditForm, detail := s!"the body is in the other half: {marker}" }
  | none =>
  match matchesMarker description groupMarkers with
  | some marker => { outcome := .refusedGroup, detail := s!"group refused: {marker}" }
  | none =>
  match matchesMarker description representationMarkers with
  | some marker =>
      { outcome := .refusedRepresentation, detail := s!"representation refused: {marker}" }
  | none => { outcome := .refused, detail := s!"Telegram refused it: {text}" }

/-- `classify_telegram`: the only place that reads a Telegram failure. -/
def classifyTelegram (error : TelegramError) : TelegramVerdict :=
  match error with
  | .transportUnavailable text => { outcome := .notSent, detail := text }
  | .retryAfter seconds _ =>
      { outcome := .rateLimited, detail := s!"rate limited for {seconds}s",
        retryAfterMs := seconds * msPerSecond }
  | .floodWait seconds _ =>
      { outcome := .rateLimited,
        detail := s!"the owner's session is rate limited for {seconds}s",
        retryAfterMs := seconds * msPerSecond }
  | .badRequest text | .notFound text => classifyBadRequest text
  | .forbidden text | .unauthorized text | .conflict text | .entityTooLarge text =>
      { outcome := .refused, detail := s!"Telegram refused it: {text}" }
  | .network _ | .server _ | .other _ _ =>
      { outcome := .noAnswer, detail := s!"{error.typeName}: {error.text}" }

/-- May the same content be offered in a different form? -/
def refusedRepresentation (error : TelegramError) : Bool :=
  (classifyTelegram error).outcome = .refusedRepresentation

/-- Did Telegram refuse the album itself, leaving its parts sendable? -/
def refusedGroup (error : TelegramError) : Bool :=
  (classifyTelegram error).outcome = .refusedGroup

/-- A bad request is an answer that names no wait. -/
theorem classifyBadRequest_outcome (text : String) :
    (classifyBadRequest text).outcome ∈
      [.noOp, .refusedEditForm, .refusedGroup, .refusedRepresentation, .refused] := by
  unfold classifyBadRequest
  simp only []
  repeat' split
  all_goals simp

end Telemax
