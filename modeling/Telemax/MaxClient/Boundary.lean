import Telemax.MaxClient.Client

/-!
# Telemax.MaxClient.Boundary

Where a MAX send creates, and what its failure proves.  A run is read through
two projections of what it asked: the creating frames, in order, with how MAX
took each (`handed`), and whether every step of the preparation went well or
failed in a way the delivery layer can read (`prepared`).

`creating_boundary`: a call meets its contract iff a creating frame was handed
over or the preparation did not fail otherwise.
-/

namespace Telemax.MaxClient

open Script

/-- How MAX took a creating frame. -/
inductive Taken
  /-- Answered with a usable id. -/
  | accepted
  /-- Answered without one. -/
  | unnamed
  | refused
  | silent
  deriving DecidableEq, Repr

/-- The frame was accepted: there is a message. -/
def Taken.created : Taken → Bool
  | accepted | unnamed => true
  | _ => false

/-- Neither a refusal nor a usable answer. -/
def Taken.open : Taken → Bool
  | unnamed | silent => true
  | _ => false

def takenOf : Except CallError RawId → Taken
  | .ok raw => if raw.usable.isSome then .accepted else .unnamed
  | .error (.api _) => .refused
  | .error (.fault _) => .silent

/-- A creating frame that was handed to the transport. -/
def creates : Asked Call.Outcome → Option Taken
  | ⟨.invoke (.messageSend _), r⟩ => some (takenOf r)
  | ⟨.sendMessage .., r⟩ => some (takenOf r)
  | _ => none

def handed (tr : List (Asked Call.Outcome)) : List Taken := tr.filterMap creates

/-- The contract of a creating call, for the frames one run handed over and its end. -/
structure Exact (frames : List Taken) (res : Except MaxError Int) : Prop where
  once : frames.countP Taken.created ≤ 1
  /-- Another frame goes out only after refusals. -/
  fallback : ∀ d ∈ frames.dropLast, d = .refused
  /-- Nothing handed over is no question for the owner. -/
  unsent : frames = [] → ∀ e, res = .error e → e ≠ .send .cancelled →
    ∀ kind, isCreating kind = true → (settle kind e.toSend true).verdict ≠ .ambiguous
  unanswered : (∃ d ∈ frames, d.open = true) →
    ∃ e, res = .error e ∧
      ∀ kind, isCreating kind = true → (settle kind e.toSend true).verdict = .ambiguous

/-! ## the preparation -/

/-- A fault that is only a cancellation. -/
def Fault.quiet : Fault → Bool
  | .cancelled => true
  | .other .. => false

def faultOk {α : Type} : Except Fault α → Bool
  | .ok _ => true
  | .error f => f.quiet

/-- An answer that reads as it should, a refusal, or a cancellation. -/
def answerOk {α : Type} (reads : α → Bool) : Except CallError α → Bool
  | .ok a => reads a
  | .error (.api _) => true
  | .error (.fault f) => f.quiet

/-- A step of the preparation went well, or failed in a way that says so. -/
def stepOk : Asked Call.Outcome → Bool
  | ⟨.invoke .stickerUpload, r⟩ =>
      answerOk (fun a : Answer String => (a.value.filter (· ≠ "")).isSome) r
  | ⟨.invoke (.stickerCreate _), r⟩ => answerOk (fun a : Answer Int => a.value.isSome) r
  | ⟨.invoke (.mediaUpload _), r⟩ => answerOk (fun _ : MediaSlot => true) r
  | ⟨.stickerOrigin _, r⟩ => faultOk r
  | ⟨.renderSticker _, r⟩ => faultOk r
  | ⟨.cachedSticker _, r⟩ => faultOk r
  | ⟨.cacheSticker .., r⟩ => faultOk r
  | ⟨.postSticker .., r⟩ =>
      match (r : Except Fault StickerBody) with
      | .ok body =>
          match body with
          | .token _ => true
          | _ => false
      | .error f => f.quiet
  | ⟨.readBytes _, r⟩ => faultOk r
  | ⟨.probeMedia .., r⟩ => faultOk r
  | ⟨.postMedia .., r⟩ => faultOk r
  | _ => true

def prepared (tr : List (Asked Call.Outcome)) : Bool := tr.all stepOk

variable {tr tr' : List (Asked Call.Outcome)}

@[simp] theorem handed_nil : handed [] = [] := rfl

@[simp] theorem handed_append : handed (tr ++ tr') = handed tr ++ handed tr' :=
  List.filterMap_append

@[simp] theorem prepared_nil : prepared [] = true := rfl

@[simp] theorem prepared_append : prepared (tr ++ tr') = (prepared tr && prepared tr') :=
  List.all_append

@[simp] theorem handed_native (n : NativeNote) (u : Unit) : handed [⟨.native n, u⟩] = [] := rfl

@[simp] theorem prepared_native (n : NativeNote) (u : Unit) : prepared [⟨.native n, u⟩] = true := rfl

/-- What an error says of the step that raised it: it is read as no question, or
caught where a plain attachment can take the place of a native one. -/
def MaxError.told (native : Bool) : MaxError → Bool
  | .send (.api _) | .send (.maxClient ..) | .send .cancelled => true
  | .media _ => native
  | _ => false

/-- An error no step past the boundary raises, and that `settle` cannot read. -/
def MaxError.untold : MaxError → Bool
  | .send (.other ..) | .sticker _ => true
  | _ => false

/-- A preparation: it creates nothing, and fails as its steps did. -/
def Prepares {α : Type} (native : Bool) (x : MaxScript α) : Prop :=
  x.wp fun tr res => handed tr = [] ∧
    match res with
    | .ok _ => prepared tr = true
    | .error e =>
        prepared tr = true ∧ e.told native = true ∨ prepared tr = false ∧ e.untold = true

variable {native : Bool}

theorem prepares_bind {α β : Type} {x : MaxScript α} {f : α → MaxScript β}
    (hx : Prepares native x) (hf : ∀ a, Prepares native (f a)) : Prepares native (x >>= f) := by
  refine wp_bind_of hx (fun tr e h => h) fun tr a h => wp_mono (fun tr' res' h' => ?_) (hf a)
  obtain ⟨hnone, hok⟩ := h
  obtain ⟨hnone', hres⟩ := h'
  refine ⟨by rw [handed_append, hnone, hnone']; rfl, ?_⟩
  rw [prepared_append, hok, Bool.true_and]
  exact hres

/-- The session is asked first. -/
theorem wp_require {Q : List (Asked Call.Outcome) → Except MaxError Unit → Prop} :
    require.wp Q ↔
      Q [⟨.connected, false⟩]
          (.error (.send (.maxClient "MaxClientError" "MAX client is not connected"))) ∧
        Q [⟨.connected, true⟩] (.ok ()) :=
  ⟨fun h => ⟨h false, h true⟩, fun h up => by cases up; exacts [h.1, h.2]⟩

theorem wp_answered {α : Type} {x : MaxScript (Except CallError α)}
    {Q : List (Asked Call.Outcome) → Except MaxError α → Prop} :
    (answered x).wp Q ↔ x.wp fun tr res =>
      match res with
      | .ok (.ok a) => Q tr (.ok a)
      | .ok (.error e) => Q tr (.error (MaxError.ofCall e))
      | .error e => Q tr (.error e) := by
  rw [answered, wp_bind]
  refine iff_of_eq (congrArg _ (funext fun tr => funext fun res => ?_))
  rcases res with e | (e | a)
  · rfl
  · simp [orThrow, wp]
  · simp [orThrow, wp]

theorem wp_fetched {α : Type} {x : MaxScript (Except Fault α)}
    {Q : List (Asked Call.Outcome) → Except MaxError α → Prop} :
    (fetched x).wp Q ↔ x.wp fun tr res =>
      match res with
      | .ok (.ok a) => Q tr (.ok a)
      | .ok (.error e) => Q tr (.error (MaxError.ofFault e))
      | .error e => Q tr (.error e) := by
  rw [fetched, wp_bind]
  refine iff_of_eq (congrArg _ (funext fun tr => funext fun res => ?_))
  rcases res with e | (e | a)
  · rfl
  · simp [orThrow, wp]
  · simp [orThrow, wp]

/-- A frame goes out when the session is there. -/
theorem wp_invoke {f : Frame} {Q : List (Asked Call.Outcome) → Except MaxError f.Reply → Prop} :
    (invoke f).wp Q ↔
      Q [⟨.connected, false⟩]
          (.error (.send (.maxClient "MaxClientError" "MAX client is not connected"))) ∧
        ∀ r : Except CallError f.Reply,
          Q [⟨.connected, true⟩, ⟨.invoke f, r⟩] (r.mapError MaxError.ofCall) := by
  rw [invoke, wp_bind, wp_require]
  refine and_congr_right fun _ => wp_answered.trans (forall_congr' fun r => ?_)
  rcases r with e | a <;> rfl

/-- Every outcome of an awaited call that is not a frame. -/
theorem prepares_fetched {α : Type} {x : MaxScript (Except Fault α)}
    (hx : x.wp fun tr res => handed tr = [] ∧
      ∃ r, res = .ok r ∧ prepared tr = faultOk r) : Prepares native (fetched x) := by
  refine wp_fetched.mpr (wp_mono ?_ hx)
  rintro tr _ ⟨hnone, r, rfl, hok⟩
  rcases r with f | a
  · refine ⟨hnone, ?_⟩
    cases f with
    | cancelled => exact .inl ⟨hok, rfl⟩
    | other name text => exact .inr ⟨hok, rfl⟩
  · exact ⟨hnone, hok⟩

theorem prepares_pure {α : Type} (a : α) : Prepares native (pure a) := ⟨rfl, rfl⟩

theorem prepares_stickerSlot : Prepares false stickerSlot := by
  refine (wp_bind _ _).mpr (wp_invoke.mpr ⟨⟨rfl, .inl ⟨rfl, rfl⟩⟩, fun r => ?_⟩)
  rcases r with (error | (_ | ⟨name, text⟩)) | slot
  · exact ⟨rfl, .inl ⟨rfl, rfl⟩⟩
  · exact ⟨rfl, .inl ⟨rfl, rfl⟩⟩
  · exact ⟨rfl, .inr ⟨rfl, rfl⟩⟩
  · have hstep : prepared [⟨.connected, true⟩, ⟨.invoke .stickerUpload, .ok slot⟩] =
        (slot.value.filter (· ≠ "")).isSome := by
      simp [prepared, stepOk, answerOk]
    dsimp only [Except.mapError]
    cases hurl : slot.value.filter (· ≠ "") with
    | none => exact ⟨rfl, .inr ⟨hstep.trans (by rw [hurl]; rfl), rfl⟩⟩
    | some url => exact ⟨rfl, hstep.trans (by rw [hurl]; rfl)⟩

theorem prepares_stickerCreated (token : String) : Prepares false (stickerCreated token) := by
  refine (wp_bind _ _).mpr (wp_invoke.mpr ⟨⟨rfl, .inl ⟨rfl, rfl⟩⟩, fun r => ?_⟩)
  rcases r with (error | (_ | ⟨name, text⟩)) | ⟨shown, _ | stickerId⟩
  · exact ⟨rfl, .inl ⟨rfl, rfl⟩⟩
  · exact ⟨rfl, .inl ⟨rfl, rfl⟩⟩
  · exact ⟨rfl, .inr ⟨rfl, rfl⟩⟩
  · exact ⟨rfl, .inr ⟨rfl, rfl⟩⟩
  · exact ⟨rfl, rfl⟩

theorem prepares_postSticker (url png : String) : Prepares false (postSticker url png) := by
  refine (wp_bind _ _).mpr (wp_fetched.mpr fun r => ?_)
  rcases r with (_ | ⟨name, text⟩) | (body | body | t)
  · exact ⟨rfl, .inl ⟨rfl, rfl⟩⟩
  · exact ⟨rfl, .inr ⟨rfl, rfl⟩⟩
  · exact ⟨rfl, .inr ⟨rfl, rfl⟩⟩
  · exact ⟨rfl, .inr ⟨rfl, rfl⟩⟩
  · exact ⟨rfl, rfl⟩

theorem prepares_createSticker (png : String) : Prepares false (createSticker png) :=
  prepares_bind prepares_stickerSlot fun url =>
    prepares_bind (prepares_postSticker url png) prepares_stickerCreated

theorem prepares_knownOrigin (c : Client) (source : String) : Prepares false (knownOrigin c source) := by
  unfold knownOrigin
  split
  · exact prepares_fetched fun r => ⟨rfl, r, rfl, Bool.and_true _⟩
  · exact prepares_pure none

theorem prepares_cachedSticker (c : Client) (digest : String) :
    Prepares false (cachedSticker c digest) := by
  unfold cachedSticker
  split
  · exact prepares_fetched fun r => ⟨rfl, r, rfl, Bool.and_true _⟩
  · exact prepares_pure none

theorem prepares_cacheSticker (c : Client) (digest : String) (stickerId : Int) :
    Prepares false (cacheSticker c digest stickerId) := by
  unfold cacheSticker
  split
  · exact prepares_fetched fun r => ⟨rfl, r, rfl, Bool.and_true _⟩
  · exact prepares_pure ()

theorem prepares_stickerFor (c : Client) (source : String) : Prepares false (stickerFor c source) := by
  refine prepares_bind (prepares_fetched fun r => ⟨rfl, r, rfl, Bool.and_true _⟩) fun rendered => ?_
  refine prepares_bind (prepares_cachedSticker c rendered.2) fun cached => ?_
  cases cached with
  | some stickerId => exact prepares_pure stickerId
  | none =>
      refine prepares_bind (prepares_createSticker rendered.1) fun stickerId => ?_
      exact prepares_bind (prepares_cacheSticker c rendered.2 stickerId) fun _ =>
        prepares_pure stickerId

/-! ## native media -/

theorem prepares_media {α : Type} (text : String) : Prepares true (throw (.media text) : MaxScript α) :=
  ⟨rfl, .inl ⟨rfl, rfl⟩⟩

theorem prepares_note (n : NativeNote) : Prepares native (note n) := fun _ => ⟨rfl, rfl⟩

theorem prepares_uploadSlot (kind : MediaKind) : Prepares true (uploadSlot kind) := by
  refine (wp_bind _ _).mpr (wp_invoke.mpr ⟨⟨rfl, .inl ⟨rfl, rfl⟩⟩, fun r => ?_⟩)
  rcases r with (error | (_ | ⟨name, text⟩)) | slot
  · exact ⟨rfl, .inl ⟨rfl, rfl⟩⟩
  · exact ⟨rfl, .inl ⟨rfl, rfl⟩⟩
  · exact ⟨rfl, .inr ⟨rfl, rfl⟩⟩
  · dsimp only [Except.mapError]
    split
    · exact ⟨rfl, rfl⟩
    · exact ⟨rfl, .inl ⟨rfl, rfl⟩⟩

theorem prepares_checkUploader (kind : MediaKind) (url : UploadUrl) :
    Prepares true (checkUploader kind url) := by
  unfold checkUploader
  split
  · exact prepares_bind (prepares_note _) fun _ => prepares_media _
  · exact prepares_pure ()

theorem prepares_postMedia (url data name : String) : Prepares true (postMedia url data name) := by
  refine prepares_bind (prepares_fetched fun r => ⟨rfl, r, rfl, Bool.and_true _⟩) fun response => ?_
  split
  · exact prepares_media _
  split
  · exact prepares_media _
  · exact prepares_pure ()

theorem prepares_prepareNative (kind : MediaKind) (source name : String) :
    Prepares true (prepareNative kind source name) := by
  refine prepares_bind (prepares_uploadSlot kind) fun slot => ?_
  refine prepares_bind (prepares_checkUploader kind slot.1) fun _ => ?_
  refine prepares_bind (prepares_fetched fun r => ⟨rfl, r, rfl, Bool.and_true _⟩) fun data => ?_
  refine prepares_bind (prepares_fetched fun r => ⟨rfl, r, rfl, Bool.and_true _⟩) fun probed => ?_
  split
  · exact prepares_media _
  · exact prepares_bind (prepares_postMedia slot.1.text data name) fun _ => prepares_pure _

/-! ## the creating call -/

/-- How a call through the shared boundary ends, by the frame it handed over. -/
inductive Sent : List Taken → Except MaxError Int → Prop
  | away (name text : String) : Sent [] (.error (.send (.maxClient name text)))
  | accepted (messageId : Int) : Sent [.accepted] (.ok messageId)
  | refused (error : ApiError) : Sent [.refused] (.error (.send (.api error)))
  | rejected (text : String) : Sent [.refused] (.error (.nativeRejected text))
  | unconfirmed {d : Taken} (h : d.open = true) (text : String) :
      Sent [d] (.error (.send (.maxUnconfirmedSend text)))
  | cancelled : Sent [.silent] (.error (.send .cancelled))

/-- A frame handed over once, if the session is there. -/
def HandsOver (call : MaxScript RawId) : Prop :=
  call.wp fun tr res => prepared tr = true ∧
    ((handed tr = [] ∧ ∃ name text, res = .error (.send (.maxClient name text))) ∨
      ∃ r : Except CallError RawId, handed tr = [takenOf r] ∧ res = r.mapError MaxError.ofCall)

theorem handsOver_invoke (m : MessageFrame) : HandsOver (invoke (.messageSend m)) :=
  wp_invoke.mpr ⟨⟨rfl, .inl ⟨rfl, _, _, rfl⟩⟩, fun r => ⟨rfl, .inr ⟨r, rfl, rfl⟩⟩⟩

theorem handsOver_sendMessage (chatId : Int) (text : String) (replyTo : Option Int)
    (attachments : List Attachment) : HandsOver (sendMessage chatId text replyTo attachments) := by
  refine wp_answered.mpr fun r => ?_
  rcases r with error | raw
  · exact ⟨rfl, .inr ⟨.error error, rfl, rfl⟩⟩
  · exact ⟨rfl, .inr ⟨.ok raw, rfl, rfl⟩⟩

/-- What `on_api_error` may do. -/
def Notes (x : MaxScript Unit) : Prop :=
  x.wp fun tr res => (handed tr = [] ∧ prepared tr = true) ∧
    (res = .ok () ∨ ∃ text, res = .error (.nativeRejected text))

theorem notes_noApiError (error : ApiError) : Notes (noApiError error) := ⟨⟨rfl, rfl⟩, .inl rfl⟩

theorem notes_breaker (kind : MediaKind) (error : ApiError) : Notes (breaker kind error) := by
  unfold breaker Notes
  dsimp only
  split
  · exact fun _ => ⟨⟨rfl, rfl⟩, .inr ⟨_, rfl⟩⟩
  · exact ⟨⟨rfl, rfl⟩, .inl rfl⟩

/-- What `on_unconfirmed` may do. -/
def Tells (x : MaxScript Unit) : Prop :=
  x.wp fun tr res => (handed tr = [] ∧ prepared tr = true) ∧ res = .ok ()

theorem tells_pure : Tells (pure ()) := ⟨⟨rfl, rfl⟩, rfl⟩

theorem tells_note (n : NativeNote) : Tells (note n) := fun _ => ⟨⟨rfl, rfl⟩, rfl⟩

/-- **The shared boundary.** -/
theorem sent_runCreatingCall {what : String} {call : MaxScript RawId}
    {onApiError : ApiError → MaxScript Unit} {onUnconfirmed : MaxScript Unit}
    (hcall : HandsOver call) (hapi : ∀ error, Notes (onApiError error))
    (htell : Tells onUnconfirmed) :
    (runCreatingCall what call onApiError onUnconfirmed).wp fun tr res =>
      prepared tr = true ∧ Sent (handed tr) res := by
  have hthrow : ∀ {α : Type} (e : MaxError), (onUnconfirmed >>= fun _ => (throw e : MaxScript α)).wp
      fun tr res => (handed tr = [] ∧ prepared tr = true) ∧ res = .error e := by
    intro α e
    refine wp_bind_of htell (fun tr e h => absurd h.2 (by simp)) fun tr a h => ?_
    exact ⟨by simpa using h.1, rfl⟩
  refine (wp_bind _ _).mpr (wp_require.mpr ⟨⟨rfl, .away _ _⟩, ?_⟩)
  refine wp_bind_of (P := fun tr res => prepared tr = true ∧
      ((∃ e, res = .error e ∧ Sent (handed tr) (.error e)) ∨
        ∃ raw : RawId, res = .ok raw ∧ handed tr = [takenOf (.ok raw)])) ?_ ?_ ?_
  · refine wp_tryCatch_of hcall ?_ ?_
    · rintro tr raw ⟨hprep, ⟨-, _, _, hres⟩ | ⟨r, hframe, hres⟩⟩
      · cases hres
      · rcases r with error | raw'
        · cases hres
        · cases hres
          exact ⟨hprep, .inr ⟨raw, rfl, hframe⟩⟩
    · rintro tr e ⟨hprep, ⟨hframe, name, text, hres⟩ | ⟨r, hframe, hres⟩⟩
      · cases hres
        exact ⟨by simpa using hprep, .inl ⟨_, rfl, by simpa [hframe] using Sent.away name text⟩⟩
      · rcases r with (error | (_ | ⟨name, text⟩)) | raw
        · cases hres
          refine wp_bind_of (hapi error) ?_ ?_
          · rintro tr' e ⟨⟨hnone, hok⟩, hres | ⟨text, hres⟩⟩
            · cases hres
            · cases hres
              exact ⟨by simp [hprep, hok],
                .inl ⟨_, rfl, by simpa [hframe, hnone, takenOf] using Sent.rejected text⟩⟩
          · rintro tr' - ⟨⟨hnone, hok⟩, -⟩
            exact ⟨by simp [hprep, hok],
              .inl ⟨_, rfl, by simpa [hframe, hnone, takenOf] using Sent.refused error⟩⟩
        · cases hres
          exact ⟨by simpa using hprep, .inl ⟨_, rfl, by simpa [hframe, takenOf] using Sent.cancelled⟩⟩
        · cases hres
          refine wp_mono ?_ (hthrow _)
          rintro tr' _ ⟨⟨hnone, hok⟩, rfl⟩
          exact ⟨by simp [hprep, hok],
            .inl ⟨_, rfl, by simpa [hframe, hnone] using Sent.unconfirmed rfl _⟩⟩
        · cases hres
  · rintro tr e ⟨hprep, ⟨_, hres, hsent⟩ | ⟨raw, hres, -⟩⟩
    · cases hres
      exact ⟨hprep, hsent⟩
    · cases hres
  · rintro tr raw ⟨hprep, ⟨_, hres, -⟩ | ⟨_, hres, hframe⟩⟩
    · cases hres
    · cases hres
      cases hraw : raw.usable with
      | some messageId =>
          have htaken : takenOf (.ok raw) = .accepted := by simp [takenOf, hraw]
          simp only [wp_pure, List.append_nil]
          exact ⟨hprep, (hframe.trans (by rw [htaken])) ▸ Sent.accepted messageId⟩
      | none =>
          have htaken : takenOf (.ok raw) = .unnamed := by simp [takenOf, hraw]
          refine wp_mono ?_ (hthrow _)
          rintro tr' _ ⟨⟨hnone, hok⟩, rfl⟩
          have hprep' : prepared (tr ++ tr') = true := by simp [hprep, hok]
          have hframe' : handed (tr ++ tr') = [.unnamed] := by simp [hframe, hnone, htaken]
          exact ⟨hprep', hframe' ▸ Sent.unconfirmed rfl _⟩

/-! ## whole calls -/

/-- How a whole call ends: at the boundary, after refusals at most, or in its preparation. -/
def Ends (tr : List (Asked Call.Outcome)) (res : Except MaxError Int) : Prop :=
  (prepared tr = true ∧ ∃ before frames, handed tr = before ++ frames ∧
      (∀ d ∈ before, d = .refused) ∧ Sent frames res) ∨
    (handed tr = [] ∧ ∃ e, res = .error e ∧
      (prepared tr = true ∧ e.told false = true ∨ prepared tr = false ∧ e.untold = true))

theorem Ends.of_sent {tr : List (Asked Call.Outcome)} {res : Except MaxError Int}
    (h : prepared tr = true ∧ Sent (handed tr) res) : Ends tr res :=
  .inl ⟨h.1, [], handed tr, rfl, by simp, h.2⟩

/-- What went before, if it handed over nothing but what was refused. -/
theorem Ends.after {tr tr' : List (Asked Call.Outcome)} {res : Except MaxError Int}
    (hprep : prepared tr = true) (hframes : ∀ d ∈ handed tr, d = .refused)
    (h : prepared tr' = true ∧ Sent (handed tr') res) : Ends (tr ++ tr') res :=
  .inl ⟨by simp [hprep, h.1], handed tr, handed tr', handed_append, hframes, h.2⟩

theorem Ends.after_nothing {tr tr' : List (Asked Call.Outcome)} {res : Except MaxError Int}
    (hprep : prepared tr = true) (hnone : handed tr = []) (h : Ends tr' res) :
    Ends (tr ++ tr') res := by
  simpa [Ends, hprep, hnone] using h

/-- A preparation, and then the rest. -/
theorem ends_of_prepares {α : Type} {x : MaxScript α} {f : α → MaxScript Int}
    (hx : Prepares false x) (hf : ∀ a, (f a).wp Ends) : (x >>= f).wp Ends := by
  refine wp_bind_of hx (fun tr e h => .inr ⟨h.1, e, rfl, h.2⟩) fun tr a h => ?_
  exact wp_mono (fun tr' res' h' => .after_nothing h.2 h.1 h') (hf a)

theorem ends_sendSticker (chatId stickerId : Int) (text : String) :
    (sendSticker chatId stickerId text).wp Ends :=
  wp_mono (fun _ _ => .of_sent)
    (sent_runCreatingCall (handsOver_invoke _) notes_noApiError tells_pure)

theorem ends_sendOneSticker (c : Client) (chatId : Int) (source text : String) :
    (sendOneSticker c chatId source text).wp Ends := by
  refine ends_of_prepares (prepares_knownOrigin c source) fun known => ?_
  cases known with
  | some stickerId => exact ends_sendSticker chatId stickerId text
  | none =>
      exact ends_of_prepares (prepares_stickerFor c source) fun stickerId =>
        ends_sendSticker chatId stickerId text

theorem sent_sendPlain (chatId : Int) (items : List Item) (text : String) (replyTo : Option Int) :
    (sendPlain chatId items text replyTo).wp fun tr res =>
      prepared tr = true ∧ Sent (handed tr) res :=
  sent_runCreatingCall (handsOver_sendMessage _ _ _ _) notes_noApiError tells_pure

/-- A native send ends at the boundary, or in its preparation. -/
theorem wp_sendNativeMedia (kind : MediaKind) (chatId : Int) (source name : String)
    (replyTo : Option Int) :
    (sendNativeMedia kind chatId source name replyTo).wp fun tr res =>
      (prepared tr = true ∧ Sent (handed tr) res) ∨
        (handed tr = [] ∧ ∃ e, res = .error e ∧
          (prepared tr = true ∧ e.told true = true ∨ prepared tr = false ∧ e.untold = true)) := by
  refine wp_bind_of (prepares_prepareNative kind source name)
    (fun tr e h => .inr ⟨h.1, e, rfl, h.2⟩) fun tr media h => ?_
  refine wp_mono (fun tr' res' h' => .inl ?_)
    (sent_runCreatingCall (handsOver_invoke _) (notes_breaker kind) (tells_note _))
  obtain ⟨hnone, hok⟩ := h
  exact ⟨by simp [show prepared tr = true from hok, h'.1], by simpa [hnone] using h'.2⟩

theorem ends_sendNativeOrPlain (chatId : Int) (item : Item) (text : String) (replyTo : Option Int) :
    (sendNativeOrPlain chatId item text replyTo).wp Ends := by
  refine wp_bind_of (prepares_note (.attempt item.kind) : Prepares false _)
    (fun tr e h => .inr ⟨h.1, e, rfl, h.2⟩) fun tr _ h => ?_
  refine wp_mono (fun tr' res' h' => Ends.after_nothing h.2 h.1 h') ?_
  -- what the `try` leaves: a message, nothing but refusals, or an error that goes on
  refine wp_bind_of (P := fun tr res =>
      match res with
      | .ok (some messageId) => Ends tr (.ok messageId)
      | .ok none => prepared tr = true ∧ ∀ d ∈ handed tr, d = .refused
      | .error e => Ends tr (.error e)) ?_ (fun _ _ h => h) ?_
  · refine (wp_tryCatch _ _).mpr ((wp_map _ _).mpr (wp_mono ?_
      (wp_sendNativeMedia item.kind chatId item.path item.name replyTo)))
    rintro tr (e | messageId) h
    · rcases h with ⟨hprep, hsent⟩ | ⟨hnone, _, hres, h⟩
      · generalize hframes : handed tr = frames at hsent
        have hends : ∀ e, Sent frames (.error e) → Ends (tr ++ []) (.error e) := fun e h => by
          simpa [← hframes] using Ends.of_sent ⟨hprep, hframes ▸ h⟩
        cases hsent with
        | rejected text => exact fun _ => ⟨by simp [hprep], by simp [hframes]⟩
        | away | refused | unconfirmed | cancelled => exact hends _ (by constructor <;> assumption)
      · cases hres
        have hends : ∀ e, (prepared tr = true ∧ e.told false = true ∨
            prepared tr = false ∧ e.untold = true) → Ends (tr ++ []) (.error e) :=
          fun e h => .inr ⟨by simpa using hnone, e, rfl, by simpa using h⟩
        rcases e with e | text | text | text
        · have htold : MaxError.told true (.send e) = MaxError.told false (.send e) := by
            cases e <;> rfl
          exact hends _ (by rwa [htold] at h)
        · exact hends _ (by simpa [MaxError.told, MaxError.untold] using h)
        · have hprep : prepared tr = true := by simpa [MaxError.told, MaxError.untold] using h
          exact fun _ => ⟨by simp [hprep], by simp [hnone]⟩
        · simp [MaxError.told, MaxError.untold] at h
    · rcases h with h | ⟨-, e, hres, -⟩
      · exact .of_sent h
      · cases hres
  · rintro tr (_ | messageId) h
    · exact wp_mono (fun tr' res' h' => .after h.1 h.2 h') (sent_sendPlain chatId [item] text replyTo)
    · refine fun u => ?_
      change Ends (tr ++ [⟨.native (.success item.kind), u⟩]) (.ok messageId)
      simpa [Ends] using h

/-! ## the contract -/

theorem Sent.length_le {frames : List Taken} {res : Except MaxError Int} (h : Sent frames res) :
    frames.length ≤ 1 := by
  cases h <;> simp

/-- An error that is no answer, past the mark of a creating kind. -/
theorem settle_untold {e : MaxError} (h : e.untold = true) {kind : JobKind}
    (hkind : isCreating kind = true) : (settle kind e.toSend true).verdict = .ambiguous := by
  rcases e with e | text | text | text
  · cases e with
    | other name text => simp [MaxError.toSend, settle, hkind]
    | _ => cases h
  · simp [MaxError.toSend, settle, hkind]
  · cases h
  · cases h

theorem settle_told {e : MaxError} (h : e.told false = true) (hne : e ≠ .send .cancelled)
    (kind : JobKind) : (settle kind e.toSend true).verdict ≠ .ambiguous := by
  rcases e with e | text | text | text
  · cases e with
    | api error =>
        simp only [MaxError.toSend, settle]
        split <;> simp
    | maxClient name text => simp [MaxError.toSend, settle]
    | cancelled => exact absurd rfl hne
    | _ => cases h
  all_goals cases h

/-- The boundary, after refusals at most, keeps the contract. -/
theorem Sent.exact {frames : List Taken} {res : Except MaxError Int} (h : Sent frames res)
    {before : List Taken} (hbefore : ∀ d ∈ before, d = .refused) : Exact (before ++ frames) res := by
  have hcount : before.countP Taken.created = 0 :=
    List.countP_eq_zero.mpr fun d hd => by simp [hbefore d hd, Taken.created]
  refine ⟨?_, ?_, ?_, ?_⟩
  · rw [List.countP_append, hcount, Nat.zero_add]
    exact List.countP_le_length.trans h.length_le
  · have hlen := h.length_le
    rcases frames with _ | ⟨d, _ | ⟨d', rest⟩⟩
    · exact fun d hd => hbefore d (by simpa using List.mem_of_mem_dropLast hd)
    · exact fun d hd => hbefore d (by simpa using hd)
    · simp at hlen
  · intro hnil e hres hne kind _
    obtain ⟨-, rfl⟩ := List.append_eq_nil_iff.mp hnil
    cases h
    cases hres
    exact settle_told rfl hne kind
  · rintro ⟨d, hd, hopen⟩
    rcases List.mem_append.mp hd with hd | hd
    · rw [hbefore d hd] at hopen
      cases hopen
    · cases h with
      | unconfirmed _ text => exact ⟨_, rfl, fun _ _ => rfl⟩
      | cancelled =>
          refine ⟨_, rfl, fun kind hkind => ?_⟩
          rw [MaxError.toSend, settle_cancelled, hkind]
          rfl
      | _ => simp_all [Taken.open]

/-- How a call ends decides its contract. -/
theorem Ends.exact_iff {tr : List (Asked Call.Outcome)} {res : Except MaxError Int}
    (h : Ends tr res) : Exact (handed tr) res ↔ prepared tr = true := by
  rcases h with ⟨hprep, before, frames, hframes, hbefore, hsent⟩ | ⟨hnone, e, rfl, h⟩
  · exact iff_of_true (hframes ▸ hsent.exact hbefore) hprep
  · rw [hnone]
    rcases h with ⟨hprep, htold⟩ | ⟨hprep, huntold⟩
    · refine iff_of_true ⟨by simp, by simp, ?_, by simp⟩ hprep
      rintro - _ ⟨rfl⟩ hne kind -
      exact settle_told htold hne kind
    · refine iff_of_false (fun hexact => ?_) (by simp [hprep])
      have hne : e ≠ .send .cancelled := fun he => by simp [he, MaxError.untold] at huntold
      exact hexact.unsent rfl e rfl hne .tgToMaxMedia rfl (settle_untold huntold rfl)

/-- A call of the client that creates. -/
inductive Request
  | text (chatId : Int) (text : String) (replyTo : Option Int)
  | contact (chatId : Int) (vcard : String) (contactUserId replyTo : Option Int)
  | sticker (chatId stickerId : Int) (text : String)
  | media (chatId : Int) (items : List Item) (text : String) (replyTo : Option Int)
  deriving DecidableEq, Repr

def Request.run (c : Client) : Request → MaxScript Int
  | .text chatId body replyTo => sendText chatId body replyTo
  | .contact chatId vcard contactUserId replyTo => sendContact chatId vcard contactUserId replyTo
  | .sticker chatId stickerId body => sendSticker chatId stickerId body
  | .media chatId items body replyTo => sendMedia c chatId items body replyTo

/-- A sticker, and a note that would go natively, are alone in their call. -/
def Request.alone (c : Client) : Request → Bool
  | media _ items _ _ =>
      items.length == 1 || !items.any fun item => item.kind = .sticker || c.allows item.kind
  | _ => true

/-- The session is not there when the call begins. -/
def startsAway : List (Asked Call.Outcome) → Bool
  | ⟨.connected, up⟩ :: _ => !up
  | _ => false

theorem alone_media {c : Client} {chatId : Int} {items : List Item} {body : String}
    {replyTo : Option Int} : (Request.media chatId items body replyTo).alone c = true ↔
      items.length = 1 ∨
        items.any (·.kind = .sticker) = false ∧ items.any (c.allows ·.kind) = false := by
  simp only [Request.alone, Bool.or_eq_true, beq_iff_eq, Bool.not_eq_true', List.any_eq_false,
    decide_eq_true_eq, Bool.or_eq_true, not_or, forall_and, Bool.not_eq_true]

/-- An error of the client itself, with nothing handed over, is a question about nothing. -/
theorem not_exact {e : MaxError} (hne : e ≠ .send .cancelled)
    (h : (settle .tgToMaxMedia e.toSend true).verdict = .ambiguous) : ¬ Exact [] (.error e) :=
  fun hexact => hexact.unsent rfl e rfl hne .tgToMaxMedia rfl h

theorem wp_sendMedia (c : Client) (chatId : Int) (items : List Item) (body : String)
    (replyTo : Option Int) :
    (sendMedia c chatId items body replyTo).wp fun tr res => Exact (handed tr) res ↔
      prepared tr = true ∧
        ((Request.media chatId items body replyTo).alone c = true ∨ startsAway tr = true) := by
  refine (wp_bind _ _).mpr (wp_require.mpr ⟨?_, ?_⟩)
  · have haway := Sent.away "MaxClientError" "MAX client is not connected"
    have hends : Ends [⟨.connected, false⟩] _ := .of_sent ⟨rfl, haway⟩
    exact hends.exact_iff.trans (iff_of_true rfl ⟨rfl, .inr rfl⟩)
  have hgood : ∀ {x : MaxScript Int}, x.wp Ends →
      (Request.media chatId items body replyTo).alone c = true →
      x.wp fun tr res => Exact (handed ([⟨.connected, true⟩] ++ tr)) res ↔
        prepared ([⟨.connected, true⟩] ++ tr) = true ∧
          ((Request.media chatId items body replyTo).alone c = true ∨
            startsAway ([⟨.connected, true⟩] ++ tr) = true) := by
    intro x hx halone
    refine wp_mono (fun tr res h => ?_) hx
    exact h.exact_iff.trans (and_iff_left (.inl halone)).symm
  have hbad : ∀ {e : MaxError}, e ≠ .send .cancelled →
      (settle .tgToMaxMedia e.toSend true).verdict = .ambiguous →
      (Request.media chatId items body replyTo).alone c = false →
      (throw e : MaxScript Int).wp fun tr res => Exact (handed ([⟨.connected, true⟩] ++ tr)) res ↔
        prepared ([⟨.connected, true⟩] ++ tr) = true ∧
          ((Request.media chatId items body replyTo).alone c = true ∨
            startsAway ([⟨.connected, true⟩] ++ tr) = true) := by
    intro e hne hverdict halone
    exact iff_of_false (not_exact hne hverdict) (by simp [halone, startsAway])
  have hcrowd : (∀ item, items ≠ [item]) →
      (items.any (·.kind = .sticker) = true ∨ items.any (c.allows ·.kind) = true) →
      (Request.media chatId items body replyTo).alone c = false := by
    intro hmany hany
    refine Bool.eq_false_iff.mpr fun halone => ?_
    rcases alone_media.mp halone with hone | ⟨hsticker, hnative⟩
    · obtain ⟨item, hitem⟩ := List.length_eq_one_iff.mp hone
      exact hmany item hitem
    · simp [hsticker, hnative] at hany
  dsimp only
  by_cases hsticker : items.any (·.kind = .sticker) = true
  · rw [if_pos hsticker]
    rcases items with _ | ⟨item, _ | ⟨item', rest⟩⟩
    · simp at hsticker
    · exact hgood (ends_sendOneSticker c chatId item.path body) (alone_media.mpr (.inl rfl))
    · exact hbad (by simp) rfl (hcrowd (by simp) (.inl hsticker))
  rw [if_neg hsticker]
  by_cases hnative : items.any (c.allows ·.kind) = true
  · rw [if_pos hnative]
    rcases items with _ | ⟨item, _ | ⟨item', rest⟩⟩
    · simp at hnative
    · exact hgood (ends_sendNativeOrPlain chatId item body replyTo) (alone_media.mpr (.inl rfl))
    · exact hbad (by simp) rfl (hcrowd (by simp) (.inr hnative))
  · rw [if_neg hnative]
    exact hgood (wp_mono (fun _ _ => .of_sent) (sent_sendPlain chatId items body replyTo))
      (alone_media.mpr (.inr ⟨by simpa using hsticker, by simpa using hnative⟩))

/-- **The creating boundary is exact** iff no step of the preparation failed in a
way that says nothing, and what has to go alone did. -/
theorem creating_boundary (c : Client) (q : Request) {tr : List (Asked Call.Outcome)}
    {res : Except MaxError Int} (h : Runs (q.run c) tr res) :
    Exact (handed tr) res ↔
      prepared tr = true ∧ (q.alone c = true ∨ startsAway tr = true) := by
  cases q with
  | text chatId body replyTo =>
      have hends : (sendText chatId body replyTo).wp Ends := by
        refine (wp_bind _ _).mpr (wp_require.mpr ⟨.of_sent ⟨rfl, .away _ _⟩, ?_⟩)
        exact wp_mono (fun _ _ h => .after_nothing rfl rfl (.of_sent h))
          (sent_runCreatingCall (handsOver_sendMessage _ _ _ _) notes_noApiError tells_pure)
      simp [(Runs.of_wp hends h).exact_iff, Request.alone]
  | contact chatId vcard contactUserId replyTo =>
      have hends : (sendContact chatId vcard contactUserId replyTo).wp Ends := 
        wp_mono (fun _ _ => .of_sent)
          (sent_runCreatingCall (handsOver_invoke _) notes_noApiError tells_pure)
      simp [(Runs.of_wp hends h).exact_iff, Request.alone]
  | sticker chatId stickerId body =>
      simp [(Runs.of_wp (ends_sendSticker chatId stickerId body) h).exact_iff, Request.alone]
  | media chatId items body replyTo => exact Runs.of_wp (wp_sendMedia c chatId items body replyTo) h

/-! ## two runs -/

/-- One sticker, for a client with a cache. -/
private def oneSticker : Request := .media 9 [⟨.sticker, "a.tgs", "a"⟩] "" none

private def caching : Client := ⟨false, true, true, true⟩

/-- The session is there, the sticker is rendered and looked up, and MAX is silent. -/
private def silent (cached : Option Int) (_ : List (Asked Call.Outcome)) :
    (c : Call) → c.Outcome
  | .connected => true
  | .invoke _ => .error (.fault (.other "TimeoutError" ""))
  | .sendMessage .. => .error (.fault (.other "TimeoutError" ""))
  | .stickerOrigin _ => .ok none
  | .renderSticker _ => .ok ("png", "digest")
  | .cachedSticker _ => .ok cached
  | .cacheSticker .. => .ok ()
  | .postSticker .. => .ok (.token "t")
  | .readBytes _ => .ok "bytes"
  | .probeMedia .. => .ok (1, "wave")
  | .postMedia .. => .ok (200, "")
  | .native _ => ()

/-- The sticker is in the cache, and op64 is not answered. -/
theorem creating_boundary_cached :
    handed (play (silent (some 7)) [] (oneSticker.run caching)).1 = [.silent] ∧
      Exact (handed (play (silent (some 7)) [] (oneSticker.run caching)).1)
        (play (silent (some 7)) [] (oneSticker.run caching)).2 :=
  ⟨rfl, (creating_boundary caching oneSticker (runs_play _ _ _)).mpr ⟨rfl, .inl rfl⟩⟩

/-- It is not, and op81 is not answered: nothing was sent, and the owner is asked
whether it was. -/
theorem not_creating_boundary :
    ¬ ∀ (c : Client) (q : Request) (tr : List (Asked Call.Outcome)) (res : Except MaxError Int),
      Runs (q.run c) tr res → Exact (handed tr) res := by
  intro h
  have hexact := h caching oneSticker _ _ (runs_play (silent none) [] _)
  exact not_exact (e := .send (.other "TimeoutError" "")) (by simp) rfl hexact

end Telemax.MaxClient
