import Telemax.Storage.Models
import Telemax.MaxClient.MaxErrors

/-!
# Telemax.Routing.Settlement

What one failed attempt means, the same answer for the inline sender and for the
worker.  Proof wins over the mark: an answer of the server is never a question
for the owner, and the mark (`sending()` had fired) decides only where there is
no proof.
-/

namespace Telemax

/-- An RPC error of the owner's MTProto session, other than `FloodWaitError`. -/
structure RpcError where
  name : String
  text : String
  code : Int
  /-- The wait it names, where it names one (`SlowModeWaitError`). -/
  seconds : Option Nat := none
  deriving DecidableEq, Repr

/-- What a sender can raise, by the class `settle` tells apart. -/
inductive SendError
  | unconfirmedDelivery (text : String)
  | maxUnconfirmedSend (text : String)
  | partialOwnerAlbum (text : String)
  | permanentDelivery (text : String)
  | deferDelivery (delayMs : Nat)
  | maxClient (name text : String)
  | ownerTransportUnavailable (text : String)
  | telegram (error : TelegramError)
  | api (error : ApiError)
  | rpc (error : RpcError)
  | cancelled
  | other (name text : String)
  deriving DecidableEq, Repr

namespace SendError

/-- `type(error).__name__`. -/
def typeName : SendError → String
  | unconfirmedDelivery _ => "UnconfirmedDeliveryError"
  | maxUnconfirmedSend _ => "MaxUnconfirmedSendError"
  | partialOwnerAlbum _ => "PartialOwnerAlbumError"
  | permanentDelivery _ => "PermanentDeliveryError"
  | deferDelivery _ => "DeferDelivery"
  | maxClient name _ => name
  | ownerTransportUnavailable _ => "OwnerTransportUnavailableError"
  | telegram error => error.typeName
  | api _ => "ApiError"
  | rpc error => error.name
  | cancelled => "CancelledError"
  | other name _ => name

/-- `str(error)`. -/
def text : SendError → String
  | unconfirmedDelivery t | maxUnconfirmedSend t | partialOwnerAlbum t | permanentDelivery t
  | maxClient _ t | ownerTransportUnavailable t | other _ t => t
  | deferDelivery _ => "deferred: waiting on the predecessor send"
  | telegram error => error.text
  | api error => error.text
  | rpc error => error.text
  | cancelled => ""

/-- `f"{type(error).__name__}: {error}"`. -/
def describe (e : SendError) : String := s!"{e.typeName}: {e.text}"

end SendError

/-- Kinds whose remote call creates a message somebody receives. -/
def creatingKinds : List JobKind :=
  [.tgToMaxText, .tgToMaxContact, .tgToMaxMedia, .maxToTgText, .maxToTgMedia, .maxToTgOwner]

def isCreating (kind : JobKind) : Bool := kind ∈ creatingKinds

/-- What to do with the job. -/
inductive Verdict
  | ambiguous
  | permanent
  | defer
  | retry
  deriving DecidableEq, Repr

/-- The shortest a rate-limited job may wait. -/
def minRateLimitMs : Nat := 1000

structure Settlement where
  verdict : Verdict
  detail : String
  delayMs : Nat := 0
  costsAttempt : Bool := true
  deriving DecidableEq, Repr

/-- `_settle_telegram`: whether Telegram said anything is the whole difference. -/
def settleTelegram (kind : JobKind) (error : TelegramError) (marked : Bool) : Settlement :=
  let verdict := classifyTelegram error
  match verdict.outcome with
  | .rateLimited =>
      { verdict := .retry, detail := verdict.detail,
        delayMs := max verdict.retryAfterMs minRateLimitMs, costsAttempt := false }
  | .notSent => { verdict := .retry, detail := verdict.detail }
  | .noAnswer =>
      if isCreating kind && marked then
        { verdict := .ambiguous,
          detail :=
            s!"the remote call had begun and Telegram never answered ({verdict.detail})" }
      else { verdict := .retry, detail := verdict.detail }
  | .refusedRepresentation | .refusedGroup | .noOp | .refusedEditForm | .refused =>
      { verdict := .permanent, detail := verdict.detail }

/-- `settle`: one failure, by strength of evidence. -/
def settle (kind : JobKind) (error : SendError) (marked : Bool) : Settlement :=
  match error with
  | .unconfirmedDelivery text | .maxUnconfirmedSend text =>
      { verdict := .ambiguous, detail := text }
  | .partialOwnerAlbum text =>
      { verdict := .ambiguous, detail := s!"the album was only half placed: {text}" }
  | .permanentDelivery text => { verdict := .permanent, detail := text }
  | .deferDelivery delayMs =>
      { verdict := .defer, detail := "waiting on a predecessor", delayMs }
  | .maxClient name text => { verdict := .retry, detail := s!"{name}: {text}" }
  | .ownerTransportUnavailable text | .telegram (.transportUnavailable text) =>
      { verdict := .retry, detail := s!"transport away: {text}" }
  | .telegram error => settleTelegram kind error marked
  | .api error =>
      let verdict := classifyMaxError error
      if verdict.permanent then
        { verdict := .permanent, detail := s!"MAX refused it: {verdict.reason}" }
      else { verdict := .retry, detail := s!"MAX refused it: {verdict.reason}" }
  | .cancelled =>
      if isCreating kind && marked then
        { verdict := .ambiguous,
          detail := "cancelled after the remote call began; the message may have been sent" }
      else { verdict := .retry, detail := "cancelled" }
  | .other name text | .rpc { name, text, .. } =>
      if isCreating kind && marked then
        { verdict := .ambiguous,
          detail := "the remote call had begun and failed in a way that proves nothing ("
            ++ s!"{name}: {text}" ++ ")" }
      else { verdict := .retry, detail := s!"{name}: {text}" }

/-- `classify` of the worker: may the job be tried again, and the wait the
server named, in seconds. -/
def classify (error : SendError) : Bool × Option Nat :=
  match error with
  | .telegram (.retryAfter seconds _) => (true, some seconds)
  | .permanentDelivery _ => (false, none)
  | .telegram (.unauthorized _) | .telegram (.forbidden _) => (false, none)
  | .telegram (.badRequest _) => (false, none)
  | _ => (true, none)

/-! ## what the verdict depends on -/

/-- `DeferDelivery` is the only failure that defers. -/
theorem settle_defer {kind : JobKind} {error : SendError} {marked : Bool}
    (h : (settle kind error marked).verdict = .defer) : ∃ delay, error = .deferDelivery delay := by
  cases error with
  | deferDelivery delay => exact ⟨delay, rfl⟩
  | telegram e =>
      have hne : (settleTelegram kind e marked).verdict ≠ .defer := by
        simp only [settleTelegram]
        repeat' split
        all_goals simp
      cases e <;> exact absurd h hne
  | _ =>
      simp only [settle] at h
      first | contradiction | (split at h <;> simp at h)

/-- A cancelled attempt is settled as a retry or, past the mark of a creating
kind, as a question. -/
theorem settle_cancelled (kind : JobKind) (marked : Bool) :
    (settle kind .cancelled marked).verdict =
      if isCreating kind && marked then .ambiguous else .retry := by
  simp only [settle]
  split <;> rfl

end Telemax
