import Telemax.Queue.Attempt

/-!
# Telemax.Routing.Evidence

What the exceptions of the send layer prove, and what `settle` makes of it.  An
exception is evidence when the server answered or the request never left; then
nothing was created, and there is nothing to ask the owner.  `OneVerdict` says
that every failure is read by its evidence and that the inline sender and the
worker write the same.

The two classifiers name the classes they read.  A Telegram answer of a class
neither names is read as silence, and a wait it names is not seen:
`classified` is what is left (`one_verdict`).
-/

namespace Telemax

/-! ## evidence -/

/-- Did the Bot API answer?  Silence is a network error, or the `5xx` that does
not say whether the request was carried out. -/
def TelegramError.answered : TelegramError → Bool
  | .transportUnavailable _ | .network _ | .server _ => false
  | _ => true

/-- The MTProto counterpart: everything below `500` is an answer. -/
def RpcError.answered (e : RpcError) : Bool := decide (e.code < 500)

namespace SendError

/-- The exception is an answer of MAX, of the Bot API or of MTProto. -/
def answered : SendError → Bool
  | .telegram e => e.answered
  | .rpc e => e.answered
  | .api _ => true
  | _ => false

/-- The exception says that there was nothing to send through. -/
def neverLeft : SendError → Bool
  | .maxClient _ _ | .ownerTransportUnavailable _ | .telegram (.transportUnavailable _) => true
  | _ => false

/-- The send layer itself says that it does not know. -/
def declaredUnknown : SendError → Bool
  | .unconfirmedDelivery _ | .maxUnconfirmedSend _ | .partialOwnerAlbum _ => true
  | _ => false

/-- The wait the server names, in seconds. -/
def namedWait : SendError → Option Nat
  | .telegram (.retryAfter seconds _) | .telegram (.floodWait seconds _) => some seconds
  | .rpc e => e.seconds
  | _ => none

end SendError

/-! ## the contract -/

/-- Two versions of one row that differ at most in the retry delay and the texts. -/
def SameLeft (r r' : OutboxItem) : Prop := r.state = r'.state ∧ r.attempts = r'.attempts

/-- One failure, one verdict, by its evidence. -/
structure OneVerdict (kind : JobKind) (error : SendError) (marked : Bool) : Prop where
  /-- Past the mark of a creating kind only what created nothing is tried again. -/
  retry : (settle kind error marked).verdict = .retry → isCreating kind = true → marked = true →
    error.answered = true ∨ error.neverLeft = true
  /-- An answer is no question, and a mutation is none unless the send layer says so. -/
  question : (settle kind error marked).verdict = .ambiguous →
    error.answered = false ∧ (isCreating kind = false → error.declaredUnknown = true)
  /-- Only a wait the server named costs no attempt, and it is a real wait. -/
  free : ((settle kind error marked).costsAttempt = false ↔ error.namedWait.isSome = true) ∧
    ((settle kind error marked).costsAttempt = false →
      minRateLimitMs ≤ (settle kind error marked).delayMs)
  /-- Below the budget both senders leave the row alike. -/
  alike : ∀ (r : OutboxItem) (backoff stamp : Nat),
    exhausted (spent r.attempts (settle kind error marked)) = false →
      SameLeft (settleInline (settle kind error marked) stamp r)
        (settleWorker r.attempts error (settle kind error marked) backoff stamp r)

/-- No Telegram answer of a class the classifiers do not name: past the mark of a
creating kind it would be read as silence, and a wait it names is not seen. -/
def classified (kind : JobKind) (error : SendError) (marked : Bool) : Bool :=
  match error with
  | .telegram (.other _ _) => !(isCreating kind && marked)
  | .rpc e => e.seconds.isNone && !(isCreating kind && marked && e.answered)
  | _ => true

/-! ## the two senders -/

/-- A bad request is an answer, whatever it says: it is refused for good. -/
theorem settleTelegram_badRequest {kind : JobKind} {error : TelegramError} {text : String}
    {marked : Bool} (he : classifyTelegram error = classifyBadRequest text) :
    (settleTelegram kind error marked).verdict = .permanent ∧
      (settleTelegram kind error marked).costsAttempt = true := by
  have hanswer := classifyBadRequest_outcome text
  simp only [settleTelegram, he]
  generalize classifyBadRequest text = v at hanswer
  obtain ⟨outcome, detail, retryAfterMs⟩ := v
  simp only [List.mem_cons, List.not_mem_nil, or_false] at hanswer
  rcases hanswer with rfl | rfl | rfl | rfl | rfl <;> exact ⟨rfl, rfl⟩

/-- What is settled as a retry, the worker's own classifier lets be tried again. -/
theorem classify_of_retry {kind : JobKind} {error : SendError} {marked : Bool}
    (h : (settle kind error marked).verdict = .retry) : (classify error).1 = true := by
  cases error with
  | telegram e =>
      cases e with
      | badRequest text =>
          have hs : (settle kind (.telegram (.badRequest text)) marked).verdict = .permanent :=
            (settleTelegram_badRequest rfl).1
          rw [hs] at h
          cases h
      | forbidden text | unauthorized text => cases h
      | _ => rfl
  | permanentDelivery text => cases h
  | _ => rfl

theorem settle_alike (kind : JobKind) (error : SendError) (marked : Bool) (r : OutboxItem)
    (backoff stamp : Nat)
    (hbudget : exhausted (spent r.attempts (settle kind error marked)) = false) :
    SameLeft (settleInline (settle kind error marked) stamp r)
      (settleWorker r.attempts error (settle kind error marked) backoff stamp r) := by
  cases hv : (settle kind error marked).verdict with
  | ambiguous | defer =>
      simp only [settleInline, settleWorker, hv]
      exact ⟨rfl, rfl⟩
  | permanent =>
      have hne : error ≠ .cancelled := by
        rintro rfl
        rw [settle_cancelled] at hv
        split at hv <;> cases hv
      simp only [settleInline, settleWorker, hv, if_neg hne, handleFailure, bne_self_eq_false,
        Bool.and_false, Bool.not_false, Bool.true_or, if_true]
      exact ⟨rfl, rfl⟩
  | retry =>
      simp only [settleInline, settleWorker, hv]
      by_cases hc : error = .cancelled
      · subst hc
        have hcosts : (settle kind .cancelled marked).costsAttempt = true := by
          simp only [settle]
          split <;> rfl
        rw [if_pos rfl, hcosts]
        exact ⟨rfl, rfl⟩
      · simp only [if_neg hc, handleFailure, hv, classify_of_retry hv, hbudget, Bool.and_false]
        rw [if_neg (by decide)]
        exact ⟨rfl, rfl⟩

/-! ## the verdicts -/

/-- An exception that proves nothing is a question past the mark of a creating
kind, else a retry; either way it costs an attempt. -/
theorem settle_other (kind : JobKind) (name text : String) (marked : Bool) :
    (settle kind (.other name text) marked).verdict =
        (if isCreating kind && marked then .ambiguous else .retry) ∧
      (settle kind (.other name text) marked).costsAttempt = true := by
  simp only [settle]
  split <;> exact ⟨rfl, rfl⟩

/-- An RPC error that is no flood wait is read as an exception that proves nothing. -/
theorem settle_rpc (kind : JobKind) (e : RpcError) (marked : Bool) :
    settle kind (.rpc e) marked = settle kind (.other e.name e.text) marked := rfl

theorem settleTelegram_silence {kind : JobKind} {error : TelegramError} {marked : Bool}
    (he : (classifyTelegram error).outcome = .noAnswer) :
    (settleTelegram kind error marked).verdict =
        (if isCreating kind && marked then .ambiguous else .retry) ∧
      (settleTelegram kind error marked).costsAttempt = true := by
  simp only [settleTelegram, he]
  split <;> exact ⟨rfl, rfl⟩

theorem settle_api (kind : JobKind) (e : ApiError) (marked : Bool) :
    (settle kind (.api e) marked).verdict ≠ .ambiguous ∧
      (settle kind (.api e) marked).costsAttempt = true := by
  simp only [settle]
  split <;> exact ⟨by simp, rfl⟩

/-- What each clause of the contract asks of the verdict, the cost and the delay. -/
theorem OneVerdict.of_settled {kind : JobKind} {error : SendError} {marked : Bool}
    (hretry : (settle kind error marked).verdict = .retry → isCreating kind = true →
      marked = true → error.answered = true ∨ error.neverLeft = true)
    (hquestion : (settle kind error marked).verdict = .ambiguous →
      error.answered = false ∧ (isCreating kind = false → error.declaredUnknown = true))
    (hcosts : (settle kind error marked).costsAttempt = true)
    (hwait : error.namedWait = none) : OneVerdict kind error marked where
  retry := hretry
  question := hquestion
  free := by simp [hcosts, hwait]
  alike := fun r backoff stamp h => settle_alike kind error marked r backoff stamp h

/-- Silence, whoever kept it, is read by the mark and the kind. -/
theorem OneVerdict.of_silence {kind : JobKind} {error : SendError} {marked : Bool}
    (h : (settle kind error marked).verdict =
        (if isCreating kind && marked then .ambiguous else .retry) ∧
      (settle kind error marked).costsAttempt = true)
    (hanswer : isCreating kind = true → marked = true → error.answered = false)
    (hwait : error.namedWait = none) : OneVerdict kind error marked := by
  refine .of_settled ?_ ?_ h.2 hwait
  · intro hv hk hm
    rw [h.1, hk, hm] at hv
    cases hv
  · intro hv
    rw [h.1] at hv
    have hboth : isCreating kind = true ∧ marked = true := by
      by_contra hno
      rw [if_neg (by simpa using hno)] at hv
      cases hv
    exact ⟨hanswer hboth.1 hboth.2, fun hk => by simp [hboth.1] at hk⟩

/-- What Telegram refuses for good is neither tried again nor a question. -/
theorem OneVerdict.of_refusal {kind : JobKind} {error : SendError} {marked : Bool}
    (h : (settle kind error marked).verdict = .permanent ∧
      (settle kind error marked).costsAttempt = true)
    (hwait : error.namedWait = none) : OneVerdict kind error marked := by
  refine .of_settled (fun hv => ?_) (fun hv => ?_) h.2 hwait
  · rw [h.1] at hv
    cases hv
  · rw [h.1] at hv
    cases hv

/-- A server that names its wait is given at least the shortest one, at no cost. -/
theorem OneVerdict.of_wait {kind : JobKind} {error : TelegramError} {marked : Bool} {wait : Nat}
    (hs : settle kind (.telegram error) marked = settleTelegram kind error marked)
    (ho : (classifyTelegram error).outcome = .rateLimited) (ha : error.answered = true)
    (hw : SendError.namedWait (.telegram error) = some wait) :
    OneVerdict kind (.telegram error) marked where
  retry := fun _ _ _ => .inl ha
  question := fun hv => by simp [hs, settleTelegram, ho] at hv
  free := by
    simp only [hs, settleTelegram, ho, hw, Option.isSome_some, true_and]
    exact fun _ => Nat.le_max_right _ _
  alike := fun r backoff stamp h => settle_alike kind _ marked r backoff stamp h

/-- **One failure, one verdict.**  For every kind, every exception of the send
layer and both values of the mark: the contract holds iff the exception is not a
Telegram answer whose class the classifiers leave out. -/
theorem one_verdict (kind : JobKind) (error : SendError) (marked : Bool) :
    OneVerdict kind error marked ↔ classified kind error marked = true := by
  cases error with
  | unconfirmedDelivery text | maxUnconfirmedSend text | partialOwnerAlbum text =>
      exact iff_of_true (.of_settled (fun h => by cases h) (fun _ => ⟨rfl, fun _ => rfl⟩) rfl rfl)
        rfl
  | permanentDelivery text | deferDelivery delay =>
      exact iff_of_true (.of_settled (fun h => by cases h) (fun h => by cases h) rfl rfl) rfl
  | maxClient name text | ownerTransportUnavailable text =>
      exact iff_of_true (.of_settled (fun _ _ _ => .inr rfl) (fun h => by cases h) rfl rfl) rfl
  | api e =>
      obtain ⟨hv, hcosts⟩ := settle_api kind e marked
      exact iff_of_true
        (.of_settled (fun _ _ _ => .inl rfl) (fun h => absurd h hv) hcosts rfl) rfl
  | cancelled =>
      refine iff_of_true (.of_silence ⟨settle_cancelled kind marked, ?_⟩ (fun _ _ => rfl) rfl) rfl
      simp only [settle]
      split <;> rfl
  | other name text =>
      exact iff_of_true (.of_silence (settle_other kind name text marked) (fun _ _ => rfl) rfl) rfl
  | rpc e =>
      have hs := settle_other kind e.name e.text marked
      rw [← settle_rpc] at hs
      constructor
      · intro h
        have hwait : e.seconds = none := by
          have hfree := h.free.1
          rw [hs.2] at hfree
          simpa [SendError.namedWait] using hfree
        have hanswer : ¬ (isCreating kind = true ∧ marked = true ∧ e.answered = true) := by
          rintro ⟨hk, hm, ha⟩
          have hno := (h.question (by rw [hs.1, hk, hm]; rfl)).1
          rw [SendError.answered, ha] at hno
          cases hno
        simp only [classified, hwait, Option.isNone_none, Bool.true_and, Bool.not_eq_true']
        cases hk : isCreating kind <;> cases hm : marked <;> simp_all
      · intro h
        simp only [classified, Bool.and_eq_true, Option.isNone_iff_eq_none, Bool.not_eq_true',
          Bool.and_eq_false_iff] at h
        refine .of_silence hs (fun hk hm => ?_) h.1
        have ha : e.answered = false := by simpa [hk, hm] using h.2
        exact ha
  | telegram e =>
      cases e with
      | transportUnavailable text =>
          exact iff_of_true (.of_settled (fun _ _ _ => .inr rfl) (fun h => by cases h) rfl rfl) rfl
      | retryAfter seconds text | floodWait seconds text =>
          exact iff_of_true (.of_wait rfl rfl rfl rfl) rfl
      | badRequest text | notFound text =>
          exact iff_of_true (.of_refusal (settleTelegram_badRequest rfl) rfl) rfl
      | forbidden text | unauthorized text | conflict text | entityTooLarge text =>
          exact iff_of_true (.of_refusal ⟨rfl, rfl⟩ rfl) rfl
      | network text | server text =>
          exact iff_of_true (.of_silence (settleTelegram_silence rfl) (fun _ _ => rfl) rfl) rfl
      | other name text =>
          have hs : (settle kind (.telegram (.other name text)) marked).verdict =
              (if isCreating kind && marked then .ambiguous else .retry) ∧ _ :=
            settleTelegram_silence rfl
          constructor
          · intro h
            simp only [classified, Bool.not_eq_true', Bool.and_eq_false_iff]
            by_contra hno
            simp only [not_or, Bool.not_eq_false] at hno
            have := (h.question (by rw [hs.1, hno.1, hno.2]; rfl)).1
            cases this
          · intro h
            simp only [classified, Bool.not_eq_true', Bool.and_eq_false_iff] at h
            exact .of_silence hs (fun hk hm => by simp [hk, hm] at h) rfl

/-- A chat the owner may not write into, as MTProto refuses it. -/
def writeForbidden : RpcError where
  name := "ChatWriteForbiddenError"
  text := "You can't write in this chat (caused by SendMessageRequest)"
  code := 403

/-- The refusal of `writeForbidden`, past the mark of an owner placement, is made a
question for the owner: whether a message exists that MTProto has refused. -/
theorem not_one_verdict : ¬ ∀ kind error marked, OneVerdict kind error marked := by
  intro h
  have hno := ((h .maxToTgOwner (.rpc writeForbidden) true).question rfl).1
  cases hno

end Telemax
