import Telemax.Telegram.Errors

/-!
# Telemax.MaxClient.MaxErrors

What a MAX error means: the first marker found in the error's own text decides.
Everything unrecognised stays retryable.
-/

namespace Telemax

/-- MAX answered and refused: the fields of its error, and its text. -/
structure ApiError where
  error : String
  message : String := ""
  localizedMessage : String := ""
  title : String := ""
  text : String := ""
  deriving DecidableEq, Repr

inductive MaxErrorClass
  | permission
  | schema
  | value
  | unknown
  deriving DecidableEq, Repr

/-- The marker table; the order matters, the first match wins. -/
def maxMarkers : List (String × MaxErrorClass) :=
  [("errors.process.attachment.video.not.supported", .schema),
   ("missing info for contact attachment", .schema),
   ("invalid media wave", .schema),
   ("proto.payload", .schema),
   ("error.message.like.unknown.like", .value),
   ("restriction to input", .permission),
   ("chat.control", .permission),
   ("not allowed", .permission),
   ("blocked", .permission),
   ("no access", .permission)]

structure MaxErrorVerdict where
  kind : MaxErrorClass
  reason : String
  deriving DecidableEq, Repr

/-- Whether trying the identical thing again can only fail identically. -/
def MaxErrorVerdict.permanent (v : MaxErrorVerdict) : Bool :=
  v.kind = .permission || v.kind = .schema

/-- `code or fallback`. -/
def orElse (code fallback : String) : String := if code = "" then fallback else code

/-- `classify_max_error`. -/
def classifyMaxError (e : ApiError) : MaxErrorVerdict :=
  let haystack :=
    lower (" ".intercalate [e.error, e.message, e.localizedMessage, e.title, e.text])
  match maxMarkers.find? fun m => decide (m.1.toList <:+: haystack) with
  | some (marker, kind) => { kind, reason := orElse e.error marker }
  | none => { kind := .unknown, reason := orElse e.error "unclassified MAX error" }

end Telemax
