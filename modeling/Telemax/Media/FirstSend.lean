import Telemax.Lib.Typestate
import Telemax.Media.Delivery

/-!
# Telemax.Media.FirstSend

When the mark of a media job is made.  A run is read by `Seen`, one call after the
other: was the mark made, once, before everything that is sent and after everything
that is fetched.  An attempt is ready for its mark iff whatever is fetched is
fetched before anything is to be said (`onTime`) and then something is
(`announces`).
-/

namespace Telemax.Media

open Script

/-! ## reading a run -/

/-- What came of an attachment that was asked for. -/
abbrev Fetched := Except FetchError LocalFile

def tooLarge : Fetched → Bool
  | .error (.tooLarge _) => true
  | _ => false

/-- The attachment carries no locator. -/
def sourceMissing : Fetched → Bool
  | .error (.unavailable code _) => code = "source_missing"
  | _ => false

/-- No verdict on the attachment: another attempt may get it. -/
def passing : Fetched → Bool
  | .error e => !tooLarge (.error e) && !sourceMissing (.error e)
  | .ok _ => false

/-- What has been seen of a run. -/
structure Seen where
  /-- `sending()` was called, and called again. -/
  announced : Bool := false
  again : Bool := false
  /-- A remote call was made before it. -/
  early : Bool := false
  /-- An attachment was fetched after it. -/
  late : Bool := false
  fetched : List Fetched := []
  /-- A cover could not be drawn. -/
  uncovered : Bool := false

namespace Seen

def next (s : Seen) : (c : Call) → c.Outcome → Seen
  | .fetch _, r => { s with late := s.late || s.announced, fetched := s.fetched ++ [r] }
  | .cover _, r => { s with uncovered := s.uncovered || !r.toBool }
  | .sending, _ => { s with announced := true, again := s.again || s.announced }
  | .send _ _, _ => { s with early := s.early || !s.announced }
  | _, _ => s

def reader : Protocol Call.Outcome Seen where
  allowed _ _ := True
  next := next

/-- A run, read from its beginning. -/
def of (tr : List (Asked Call.Outcome)) : Seen := reader.after {} tr

/-- A fetch failed without a verdict. -/
def failed (s : Seen) : Bool := s.fetched.any passing

/-- The guarantee of `on_sending`: where a download failed nothing was announced or sent, and the
job is a retry; else it is announced once, before the first call and after the last fetch. -/
def Ready {α : Type} (s : Seen) (res : Except SendError α) : Prop :=
  if s.failed then
    s.announced = false ∧ s.early = false ∧ ∃ e, res = .error e ∧
      ∀ kind : JobKind, (settle kind e s.announced).verdict = .retry
  else s.announced = true ∧ s.again = false ∧ s.early = false ∧ s.late = false

end Seen

/-- A kind that is a file. -/
def AttachmentKind.isFile : AttachmentKind → Bool
  | .link | .service | .call | .contact | .unknown => false
  | _ => true

/-- What was fetched was fetched before anything was to be said: the parts of an album, none but
the last too large, and nothing next to it; else the first attachment, if it is a file. -/
def onTime (message : IncomingMaxMessage) (fetched : List Fetched) : Bool :=
  if (albumAttachments message).isEmpty then
    fetched.length ≤ if message.attachments.head?.any (·.kind.isFile) then 1 else 0
  else
    fetched.length ≤ (albumAttachments message).length && !fetched.dropLast.any tooLarge

/-- There is something to say, and what there is can be put together. -/
def announces (message : IncomingMaxMessage) (caption : String) (s : Seen) : Bool :=
  (!message.attachments.isEmpty || !(splitCaption caption).2.isEmpty) && !s.uncovered &&
    ((albumAttachments message).isEmpty || !s.fetched.any sourceMissing)

/-! ## the senders -/

/-- Once it is announced a method of the sender changes nothing of what is seen. -/
def Quietly {α : Type} (x : SendScript α) : Prop :=
  ∀ s : Seen, s.announced = true → Carries Seen.reader (· = s) x (· = s)

section

variable {α β : Type} {x : SendScript α}

theorem quietly_pure (a : α) : Quietly (pure a : SendScript α) :=
  fun _ _ => Carries.pure a fun _ h => h

theorem quietly_throw (e : SendError) : Quietly (throw e : SendScript α) :=
  fun _ _ => Carries.throw e fun _ h => h

theorem Quietly.bind {f : α → SendScript β} (hx : Quietly x) (hf : ∀ a, Quietly (f a)) :
    Quietly (x >>= f) :=
  fun s hs => (hx s hs).bind (fun _ h => h) fun a => hf a s hs

theorem Quietly.tryCatch {h : SendError → SendScript α} (hx : Quietly x) (hh : ∀ e, Quietly (h e)) :
    Quietly (MonadExcept.tryCatch x h) :=
  fun s hs => (hx s hs).tryCatch (fun _ h => h) fun e => hh e s hs

theorem quietly_ask {c : Call} (hc : ∀ (s : Seen) r, s.announced = true → s.next c r = s) :
    Quietly (ask c) :=
  fun s hs => Carries.query c (fun _ _ => trivial) fun _ h r => h ▸ hc s r hs

theorem quietly_send (c : Content) (replyTo : Option Int) : Quietly (ask (.send c replyTo)) :=
  quietly_ask fun s _ hs => by
    cases s
    simp_all [Seen.next]

theorem quietly_mapM {f : α → SendScript β} (hf : ∀ a, Quietly (f a)) (l : List α) :
    Quietly (l.mapM' f) := by
  induction l with
  | nil => exact quietly_pure _
  | cons a l ih => exact (hf a).bind fun b => ih.bind fun bs => quietly_pure (b :: bs)

theorem quietly_checkAlbumReceipt (ids : List Int) (n : Nat) : Quietly (checkAlbumReceipt ids n) := by
  unfold checkAlbumReceipt
  split
  · exact quietly_throw _
  · exact quietly_pure ()

end

structure TelegramMediaSender.Quietly (s : TelegramMediaSender) : Prop where
  sendFile : ∀ form m replyTo, Media.Quietly (s.sendFile form m replyTo)
  sendAlbum : ∀ items replyTo, Media.Quietly (s.sendAlbum items replyTo)
  sendText : ∀ text replyTo entities buttons,
    Media.Quietly (s.sendText text replyTo entities buttons)
  sendContact : ∀ phone firstName lastName vcard replyTo,
    Media.Quietly (s.sendContact phone firstName lastName vcard replyTo)
  sendPhotoUrl : ∀ url caption replyTo buttons,
    Media.Quietly (s.sendPhotoUrl url caption replyTo buttons)

namespace RegistryMediaSender

variable (botId : Int)

theorem quietly_bot : Quietly (bot botId) := by
  refine (quietly_ask fun _ _ _ => rfl).bind fun live => ?_
  cases live with
  | true => exact quietly_pure ()
  | false => exact quietly_throw _

theorem quietly_idOf (raw : Option Int) : Quietly (idOf raw) := by
  unfold idOf
  split
  · exact quietly_throw _
  · split
    · exact quietly_throw _
    · exact quietly_pure _

theorem quietly_answered (r : Except RemoteFault (Option Int)) : Quietly (answered r) := by
  cases r with
  | ok raw => exact quietly_idOf raw
  | error f => exact quietly_throw _

theorem quietly_document (m : OutgoingMedia) (replyTo : Option Int) :
    Quietly (document botId m replyTo) :=
  (quietly_bot botId).bind fun _ => (quietly_send _ _).bind quietly_answered

theorem quietly_sendText (text : String) (replyTo : Option Int) (entities : Entities)
    (buttons : Buttons) : Quietly (sendText botId text replyTo entities buttons) :=
  (quietly_bot botId).bind fun _ => (quietly_send _ _).bind quietly_answered

theorem quietly_inForm {form : Form} {m : OutgoingMedia} {replyTo : Option Int}
    {accepted : Int → SendScript Int} {fallback : SendScript Int}
    (haccepted : ∀ message, Quietly (accepted message)) (hfallback : Quietly fallback) :
    Quietly (inForm botId form m replyTo accepted fallback) := by
  refine (quietly_bot botId).bind fun _ => (quietly_send _ _).bind fun r => ?_
  rcases r with (error | error | fault) | raw
  · cases error with
    | badRequest text =>
        dsimp only
        split
        · exact hfallback
        · exact quietly_throw _
    | _ => exact quietly_throw _
  · exact quietly_throw _
  · exact quietly_throw _
  · exact (quietly_idOf raw).bind haccepted

theorem quietly_sendPhoto (m : OutgoingMedia) (replyTo : Option Int) :
    Quietly (sendPhoto botId m replyTo) :=
  quietly_inForm botId quietly_pure (quietly_document botId m replyTo)

theorem quietly_sendVideo (m : OutgoingMedia) (replyTo : Option Int) :
    Quietly (sendVideo botId m replyTo) :=
  quietly_inForm botId quietly_pure (quietly_document botId m replyTo)

theorem quietly_sendFile (form : Form) (m : OutgoingMedia) (replyTo : Option Int) :
    Quietly (sendFile botId form m replyTo) := by
  cases form with
  | photo => exact quietly_sendPhoto botId m replyTo
  | video => exact quietly_sendVideo botId m replyTo
  | videoNote =>
      refine quietly_inForm botId (fun message => ?_) (quietly_sendVideo botId _ replyTo)
      split
      · exact quietly_pure message
      · exact (quietly_sendText botId _ _ _ _).bind fun _ => quietly_pure message
  | document => exact quietly_document botId m replyTo
  | sticker => exact quietly_inForm botId quietly_pure (quietly_sendPhoto botId m replyTo)
  | voice | audio => exact quietly_inForm botId quietly_pure (quietly_document botId m replyTo)

theorem quietly_dispatchSingle (replyTo : Option Int) (m : OutgoingMedia) :
    Quietly (dispatchSingle botId replyTo m) := by
  unfold dispatchSingle
  split
  · exact quietly_sendPhoto botId m replyTo
  · exact quietly_sendVideo botId m replyTo

theorem quietly_sendAlbum (items : List OutgoingMedia) (replyTo : Option Int) :
    Quietly (sendAlbum botId items replyTo) := by
  refine (quietly_bot botId).bind fun _ => (quietly_send _ _).bind fun r => ?_
  rcases r with (error | error | fault) | answer
  · cases error with
    | badRequest text =>
        dsimp only
        split
        · exact (quietly_mapM (quietly_dispatchSingle botId replyTo) items).bind fun ids =>
            (quietly_checkAlbumReceipt ids items.length).bind fun _ => quietly_pure _
        · exact quietly_throw _
    | _ => exact quietly_throw _
  · exact quietly_throw _
  · exact quietly_throw _
  · exact (quietly_mapM quietly_idOf answer.ids).bind fun ids =>
      (quietly_checkAlbumReceipt ids items.length).bind fun _ => quietly_pure _

theorem quietly_sendPhotoUrl (url caption : String) (replyTo : Option Int) (buttons : Buttons) :
    Quietly (sendPhotoUrl botId url caption replyTo buttons) := by
  refine (quietly_bot botId).bind fun _ => (quietly_send _ _).bind fun r => ?_
  rcases r with (error | error | fault) | raw
  · cases error with
    | badRequest text =>
        dsimp only
        split
        · exact quietly_pure none
        · exact quietly_throw _
    | _ => exact quietly_throw _
  · exact quietly_throw _
  · exact quietly_throw _
  · exact (quietly_idOf raw).bind fun message => quietly_pure (some message)

end RegistryMediaSender

theorem quietly_registryMediaSender (botId : Int) : (registryMediaSender botId).Quietly where
  sendFile := RegistryMediaSender.quietly_sendFile botId
  sendAlbum := RegistryMediaSender.quietly_sendAlbum botId
  sendText := RegistryMediaSender.quietly_sendText botId
  sendContact _ _ _ _ _ := (RegistryMediaSender.quietly_bot botId).bind fun _ =>
    (quietly_send _ _).bind RegistryMediaSender.quietly_answered
  sendPhotoUrl := RegistryMediaSender.quietly_sendPhotoUrl botId

namespace MtprotoOwnerSender

theorem quietly_require : Quietly require := by
  refine (quietly_ask fun _ _ _ => rfl).bind fun there => ?_
  cases there with
  | true => exact quietly_pure ()
  | false => exact quietly_throw _

theorem quietly_named (text : String) (r : Except RemoteFault (Option Int)) :
    Quietly (named text r) := by
  rcases r with f | _ | message
  · exact quietly_throw _
  · exact quietly_throw _
  · exact quietly_pure message

theorem quietly_place (form : Form) (m : OutgoingMedia) : Quietly (place form m) :=
  quietly_require.bind fun _ => (quietly_send _ _).bind (quietly_named _)

theorem quietly_grouped (items : List OutgoingMedia) : Quietly (grouped items) := by
  refine quietly_require.bind fun _ => (quietly_send _ _).bind fun r => ?_
  rcases r with f | placed
  · exact quietly_throw _
  · dsimp only
    split
    · exact quietly_throw _
    · exact (quietly_checkAlbumReceipt _ items.length).bind fun _ => quietly_pure _

theorem quietly_placeFrom (total index : Nat) (items : List OutgoingMedia) :
    Quietly (placeFrom total index items) := by
  induction items generalizing index with
  | nil => exact quietly_pure []
  | cons item rest ih =>
      refine Quietly.bind (Quietly.tryCatch (quietly_place _ _) fun e => ?_) fun message =>
        (ih (index + 1)).bind fun messages => quietly_pure _
      cases e with
      | _ => exact quietly_throw _

theorem quietly_sendAlbum (items : List OutgoingMedia) (replyTo : Option Int) :
    Quietly (sendAlbum items replyTo) := by
  unfold sendAlbum
  split
  · exact quietly_grouped items
  · exact (quietly_placeFrom _ 0 items).bind fun ids =>
      (quietly_checkAlbumReceipt ids items.length).bind fun _ => quietly_pure _

theorem quietly_sendText (text : String) (replyTo : Option Int) (entities : Entities)
    (buttons : Buttons) : Quietly (sendText text replyTo entities buttons) :=
  quietly_require.bind fun _ => (quietly_send _ _).bind (quietly_named _)

end MtprotoOwnerSender

theorem quietly_mtprotoOwnerSender : mtprotoOwnerSender.Quietly where
  sendFile _ m _ := MtprotoOwnerSender.quietly_place _ m
  sendAlbum := MtprotoOwnerSender.quietly_sendAlbum
  sendText := MtprotoOwnerSender.quietly_sendText
  sendContact _ _ _ _ replyTo := MtprotoOwnerSender.quietly_sendText _ replyTo none none
  sendPhotoUrl _ _ _ _ := quietly_pure none

/-! ## a delivery -/

/-- From `s` the delivery ends in `Q`, and its flag is the mark that was seen. -/
def Sees {α : Type} (x : Delivering α) (s : Seen) (Q : Seen → Except SendError α → Prop) : Prop :=
  Obeys Seen.reader s (x.run s.announced) fun t res =>
    match res with
    | .ok (a, announced) => announced = t.announced ∧ Q t (.ok a)
    | .error e => Q t (.error e)

section

variable {α β : Type} {x : Delivering α} {s : Seen}

theorem sees_pure {a : α} {Q : Seen → Except SendError α → Prop} (h : Q s (.ok a)) :
    Sees (pure a) s Q := ⟨rfl, h⟩

theorem sees_raise {e : SendError} {Q : Seen → Except SendError α → Prop} (h : Q s (.error e)) :
    Sees (raise e) s Q := h

theorem Sees.bind {f : α → Delivering β} {P : Seen → Except SendError α → Prop}
    {Q : Seen → Except SendError β → Prop} (hx : Sees x s P)
    (hfail : ∀ t e, P t (.error e) → Q t (.error e))
    (hf : ∀ t a, P t (.ok a) → Sees (f a) t Q) : Sees (x >>= f) s Q := by
  refine Obeys.bind hx hfail fun t p hp => ?_
  have hgo := hf t p.1 hp.2
  rw [Sees, ← hp.1] at hgo
  exact hgo

theorem Sees.mono {P Q : Seen → Except SendError α → Prop} (h : Sees x s P)
    (himp : ∀ t res, P t res → Q t res) : Sees x s Q := by
  refine Obeys.mono h fun t res hres => ?_
  cases res with
  | ok p => exact ⟨hres.1, himp _ _ hres.2⟩
  | error e => exact himp _ _ hres

/-- Where a run leads. -/
theorem Sees.runs {Q : Seen → Except SendError α → Prop} (h : Sees x s Q)
    {tr : List (Asked Call.Outcome)} {res : Except SendError (α × Bool)}
    (hr : Runs (x.run s.announced) tr res) : Q (Seen.reader.after s tr) (res.map Prod.fst) := by
  have hend := Obeys.runs h hr
  cases res with
  | ok p => exact hend.2
  | error e => exact hend

/-- What comes before the first call of the sender leaves the mark alone. -/
theorem sees_lift {y : SendScript α} {Q : Seen → Except SendError α → Prop}
    (h : Obeys Seen.reader s y fun t res => t.announced = s.announced ∧ Q t res) :
    Sees (liftM y : Delivering α) s Q :=
  Obeys.bind h (fun _ _ h => h.2) fun _ _ h => ⟨h.1.symm, h.2⟩

namespace Seen

/-- The mark was made, now or before. -/
def said (s : Seen) : Seen := { s with announced := true }

/-- An attachment was fetched. -/
def got (s : Seen) (r : Fetched) : Seen :=
  { s with late := s.late || s.announced, fetched := s.fetched ++ [r] }

/-- A cover was not drawn. -/
def bare (s : Seen) : Seen := { s with uncovered := true }

theorem said_of_announced (h : s.announced = true) : s.said = s := by
  cases s
  exact congrArg (fun b => Seen.mk b _ _ _ _ _) h.symm

end Seen

/-- Announced or not before, a call of the sender leaves the mark made and the rest alone. -/
theorem sees_announcing {y : SendScript α} (hy : Quietly y) :
    Sees (announcing y) s fun t _ => t = s.said := by
  unfold Sees
  cases hs : s.announced with
  | true =>
      rw [Seen.said_of_announced hs]
      exact Obeys.bind (hy s hs s rfl) (fun _ _ h => h) fun t a h => ⟨(h ▸ hs).symm, h⟩
  | false =>
      refine ⟨trivial, fun r => ?_⟩
      have hnext : Seen.reader.next s .sending r = s.said := by
        simp [Seen.reader, Seen.next, Seen.said, hs]
      rw [hnext]
      rcases r with f | ⟨⟩
      · exact rfl
      · change Obeys Seen.reader s.said (y >>= fun a => pure (a, true)) _
        exact Obeys.bind (hy s.said rfl s.said rfl) (fun _ _ h => h) fun t a h =>
          ⟨(congrArg Seen.announced h).symm, h⟩

theorem sees_fetch (a : MaxAttachment) :
    Sees (liftM (ask (.fetch a))) s fun t res => ∃ r, res = .ok r ∧ t = s.got r :=
  sees_lift ⟨trivial, fun r => ⟨rfl, r, rfl, rfl⟩⟩

theorem sees_cover (a : MaxAttachment) (file : LocalFile) :
    Sees (liftM (cover a file)) s fun t res =>
      t = match res with
        | .ok _ => s
        | .error _ => s.bare := by
  refine sees_lift ?_
  unfold cover
  split
  case h_1 | h_2 =>
    refine ⟨trivial, fun r => ?_⟩
    cases r with
    | ok thumbnail => exact ⟨rfl, by cases s; simp [Seen.reader, Seen.next, Except.toBool]⟩
    | error f => exact ⟨rfl, by simp [Seen.reader, Seen.next, Seen.bare, Except.toBool]⟩
  case h_3 => exact ⟨rfl, rfl⟩

end

attribute [irreducible] Sees

/-! ## after the mark -/

/-- What may still follow where the mark is made: attachments that are fetched too late. -/
structure Seen.Then (s t : Seen) : Prop where
  announced : t.announced = true
  again : t.again = s.again
  early : t.early = s.early
  fetched : ∃ rest, t.fetched = s.fetched ++ rest ∧ t.late = (s.late || !rest.isEmpty) ∧
    (rest = [] → t.uncovered = s.uncovered)

namespace Seen.Then

variable {s t u : Seen}

theorem refl (h : s.announced = true) : s.Then s :=
  ⟨h, rfl, rfl, [], by simp, by simp, fun _ => rfl⟩

theorem trans (h : s.Then t) (h' : t.Then u) : s.Then u := by
  obtain ⟨rest, hf, hl, hu⟩ := h.fetched
  obtain ⟨rest', hf', hl', hu'⟩ := h'.fetched
  refine ⟨h'.announced, h'.again.trans h.again, h'.early.trans h.early, rest ++ rest', ?_, ?_, ?_⟩
  · rw [hf', hf, List.append_assoc]
  · rw [hl', hl]
    cases rest <;> simp
  · intro hnil
    obtain ⟨h₁, h₂⟩ := List.append_eq_nil_iff.mp hnil
    rw [hu' h₂, hu h₁]

theorem said (h : s.announced = true) : s.Then s.said := by
  rw [Seen.said_of_announced h]
  exact refl h

theorem got (h : s.announced = true) (r : Fetched) : s.Then (s.got r) :=
  ⟨h, rfl, rfl, [r], rfl, by simp [Seen.got, h], fun h => by cases h⟩

end Seen.Then

/-- A part of a delivery that begins after the mark. -/
def Follows {α : Type} (x : Delivering α) : Prop :=
  ∀ s : Seen, s.announced = true → Sees x s fun t _ => s.Then t

section

variable {α β : Type} {x : Delivering α}

theorem follows_pure (a : α) : Follows (pure a : Delivering α) :=
  fun _ hs => sees_pure (.refl hs)

theorem Follows.bind {f : α → Delivering β} (hx : Follows x) (hf : ∀ a, Follows (f a)) :
    Follows (x >>= f) :=
  fun s hs => (hx s hs).bind (fun _ _ h => h) fun t a h =>
    (hf a t h.announced).mono fun _ _ h' => h.trans h'

theorem follows_announcing {y : SendScript α} (hy : Quietly y) : Follows (announcing y) :=
  fun _ hs => (sees_announcing hy).mono fun _ _ h => h ▸ .said hs

end

theorem sees_noteStickerOrigin (d : MaxMediaDelivery) (a : MaxAttachment) (file : LocalFile)
    (s : Seen) : Sees (liftM (d.noteStickerOrigin a file)) s fun t _ => t = s := by
  refine sees_lift ?_
  unfold MaxMediaDelivery.noteStickerOrigin
  split
  · exact ⟨rfl, rfl⟩
  · refine ⟨trivial, fun r => ?_⟩
    rcases r with (_ | ⟨name, text⟩) | ⟨⟩
    · exact ⟨rfl, rfl⟩
    · exact ⟨rfl, rfl⟩
    · exact ⟨rfl, rfl⟩

namespace MaxMediaDelivery

variable (d : MaxMediaDelivery)

theorem sendOne_eq_sendFile {a : MaxAttachment} (ha : a.kind.isFile = true) (isOutgoing : Bool)
    (caption : Option String) (entities : Entities) (replyTo : Option Int) :
    d.sendOne isOutgoing a caption entities replyTo = d.sendFile a caption entities replyTo := by
  unfold sendOne
  split <;> simp_all [AttachmentKind.isFile]

variable (hd : d.sender.Quietly)
include hd

theorem sees_dispatch (m : OutgoingMedia) (replyTo : Option Int) (s : Seen) :
    Sees (d.dispatch m replyTo) s fun t _ => t = s.said := by
  refine (sees_announcing (hd.sendFile _ m replyTo)).bind (fun _ _ h => h) fun t sent h => ?_
  subst h
  split
  · exact sees_pure rfl
  · refine (sees_announcing (hd.sendText _ _ _ _)).bind (fun _ _ h => h) fun t _ h => ?_
    exact sees_pure h

/-- What is behind a file, from before the mark or after it. -/
theorem sees_sendFile (a : MaxAttachment) (caption : Option String) (entities : Entities)
    (replyTo : Option Int) (s : Seen) :
    Sees (d.sendFile a caption entities replyTo) s fun t res =>
      ∃ r, (∃ e, passing (.error e) = true ∧ r = .error e ∧ res = .error e.toSend ∧ t = s.got r) ∨
        passing r = false ∧
          ((∃ e, res = .error e ∧ r.toBool = true ∧ t = (s.got r).bare) ∨ t = (s.got r).said) := by
  refine (sees_fetch a).bind (fun t e h => absurd h (by simp)) fun t r h => ?_
  obtain ⟨_, hr, rfl⟩ := h
  cases hr
  rcases r with (limit | ⟨code, text⟩ | f) | file
  · exact (sees_announcing (hd.sendText _ _ _ _)).mono fun t res h => ⟨_, .inr ⟨rfl, .inr h⟩⟩
  · dsimp only
    split
    case isTrue hcode =>
      exact (sees_announcing (hd.sendText _ _ _ _)).mono fun t res h =>
        ⟨_, .inr ⟨by simp [passing, sourceMissing, hcode], .inr h⟩⟩
    case isFalse hcode =>
      exact sees_raise ⟨_, .inl ⟨_, by simp [passing, sourceMissing, tooLarge, hcode], rfl, rfl, rfl⟩⟩
  · exact sees_raise ⟨_, .inl ⟨_, rfl, rfl, rfl, rfl⟩⟩
  · refine (sees_cover a file).bind (fun t e h => ?_) fun t thumbnail h => ?_
    · exact ⟨_, .inr ⟨rfl, .inl ⟨e, rfl, rfl, h⟩⟩⟩
    · subst h
      refine (d.sees_dispatch hd _ replyTo _).bind (fun t e h => ?_) fun t sent h => ?_
      · exact ⟨_, .inr ⟨rfl, .inr h⟩⟩
      · refine (sees_noteStickerOrigin d a file t).bind (fun t' e h' => ?_) fun t' _ h' => ?_
        · exact ⟨_, .inr ⟨rfl, .inr (h'.trans h)⟩⟩
        · exact sees_pure ⟨_, .inr ⟨rfl, .inr (h'.trans h)⟩⟩

theorem sees_sendContact (a : MaxAttachment) (caption : Option String) (entities : Entities)
    (replyTo : Option Int) (s : Seen) :
    Sees (d.sendContact a caption entities replyTo) s fun t _ => t = s.said := by
  unfold sendContact
  split
  · exact sees_announcing (hd.sendContact _ _ _ _ _)
  · dsimp only
    split
    · refine (sees_announcing (hd.sendPhotoUrl _ _ _ _)).bind (fun _ _ h => h) fun t shown h => ?_
      subst h
      cases shown with
      | some message => exact sees_pure rfl
      | none => exact sees_announcing (hd.sendText _ _ _ _)
    · exact sees_announcing (hd.sendText _ _ _ _)

/-- What is no file says its line at once. -/
theorem sees_sendOne_line {a : MaxAttachment} (ha : a.kind.isFile = false) (isOutgoing : Bool)
    (caption : Option String) (entities : Entities) (replyTo : Option Int) (s : Seen) :
    Sees (d.sendOne isOutgoing a caption entities replyTo) s fun t _ => t = s.said := by
  unfold sendOne
  split
  · exact sees_announcing (hd.sendText _ _ _ _)
  · exact sees_announcing (hd.sendText _ _ _ _)
  · exact sees_announcing (hd.sendText _ _ _ _)
  · exact d.sees_sendContact hd a caption entities replyTo s
  · exact sees_announcing (hd.sendText _ _ _ _)
  · simp_all [AttachmentKind.isFile]

theorem follows_sendOne (isOutgoing : Bool) (a : MaxAttachment) (caption : Option String)
    (entities : Entities) (replyTo : Option Int) :
    Follows (d.sendOne isOutgoing a caption entities replyTo) := by
  intro s hs
  cases ha : a.kind.isFile with
  | false =>
      exact (d.sees_sendOne_line hd ha isOutgoing caption entities replyTo s).mono
        fun t _ h => h ▸ .said hs
  | true =>
      rw [d.sendOne_eq_sendFile ha]
      refine (d.sees_sendFile hd a caption entities replyTo s).mono fun t res h => ?_
      obtain ⟨r, ⟨e, _, _, _, rfl⟩ | ⟨_, ⟨e, _, _, rfl⟩ | rfl⟩⟩ := h
      · exact .got hs r
      · exact ⟨hs, rfl, rfl, [r], rfl, by simp [Seen.bare, Seen.got, hs], nofun⟩
      · exact (Seen.Then.got hs r).trans (.said hs)

theorem follows_sendSingles (isOutgoing : Bool) (replyTo : Option Int) (rest : List MaxAttachment)
    (caption : Option String) (entities : Entities) (first : Option Int) :
    Follows (d.sendSingles isOutgoing replyTo rest caption entities first) := by
  induction rest generalizing caption entities first with
  | nil => exact follows_pure first
  | cons a rest ih =>
      exact (d.follows_sendOne hd isOutgoing a caption entities _).bind fun sent => ih none none _

theorem follows_sendTail (tail : String) (replyTo first : Option Int) :
    Follows (d.sendTail tail replyTo first) := by
  unfold sendTail
  split
  · exact follows_pure first
  · exact (follows_announcing (hd.sendText _ _ _ _)).bind fun sent => follows_pure _

end MaxMediaDelivery

/-! ## an album -/

/-- The parts of an album have been fetched up to here, and each that was too large was named. -/
structure Gathered (t : Seen) : Prop where
  again : t.again = false
  early : t.early = false
  uncovered : t.uncovered = false
  announced : t.announced = t.fetched.any tooLarge
  late : t.late = t.fetched.dropLast.any tooLarge
  settled : ∀ r ∈ t.fetched, passing r = false ∧ sourceMissing r = false

/-- The album was left where it was, with `e`, after at most `n` parts. -/
structure Stopped (n : Nat) (t : Seen) (e : SendError) : Prop where
  again : t.again = false
  early : t.early = false
  length : t.fetched.length ≤ n
  late : t.late = t.fetched.dropLast.any tooLarge
  said : t.announced = true → t.late = false →
    t.failed = false ∧ t.uncovered = false ∧ t.fetched.any sourceMissing = false
  unsaid : t.announced = false → t.late = false ∧
    ((t.failed = true ∧ ∃ f, passing (.error f) = true ∧ e = f.toSend) ∨
      t.failed = false ∧ (t.uncovered = true ∨ t.fetched.any sourceMissing = true))

theorem any_dropLast {p : Fetched → Bool} {l : List Fetched} (h : l.dropLast.any p = true) :
    l.any p = true := by
  obtain ⟨r, hr, hp⟩ := List.any_eq_true.mp h
  exact List.any_eq_true.mpr ⟨r, List.dropLast_subset l hr, hp⟩

namespace Gathered

variable {s : Seen}

theorem failed (h : Gathered s) : s.failed = false :=
  List.any_eq_false.mpr fun r hr => by simp [(h.settled r hr).1]

theorem sourced (h : Gathered s) : s.fetched.any sourceMissing = false :=
  List.any_eq_false.mpr fun r hr => by simp [(h.settled r hr).2]

theorem late_of_unsaid (h : Gathered s) (hann : s.announced = false) : s.late = false := by
  rw [h.late]
  refine Bool.eq_false_iff.mpr fun hd => ?_
  rw [h.announced, any_dropLast hd] at hann
  cases hann

/-- With one more part, late follows the earlier parts and the mark is still to be made. -/
theorem got_late (h : Gathered s) (r : Fetched) :
    (s.got r).late = (s.got r).fetched.dropLast.any tooLarge := by
  simp only [Seen.got, List.dropLast_concat, h.late, h.announced]
  cases hd : s.fetched.dropLast.any tooLarge with
  | true => simp [any_dropLast hd]
  | false => rfl

theorem got_settled (h : Gathered s) {r : Fetched} (hr : passing r = false ∧ sourceMissing r = false) :
    ∀ r' ∈ (s.got r).fetched, passing r' = false ∧ sourceMissing r' = false := by
  intro r' hmem
  rcases List.mem_append.mp hmem with hold | hnew
  · exact h.settled r' hold
  · exact List.mem_singleton.mp hnew ▸ hr

/-- A part that came. -/
theorem file (h : Gathered s) (file : LocalFile) : Gathered (s.got (.ok file)) where
  again := h.again
  early := h.early
  uncovered := h.uncovered
  announced := by simp [Seen.got, h.announced, tooLarge]
  late := h.got_late _
  settled := h.got_settled ⟨rfl, rfl⟩

/-- A part that is too large, and was named. -/
theorem named (h : Gathered s) (limit : Nat) : Gathered (s.got (.error (.tooLarge limit))).said where
  again := h.again
  early := h.early
  uncovered := h.uncovered
  announced := by simp [Seen.said, Seen.got, tooLarge]
  late := h.got_late _
  settled := h.got_settled ⟨rfl, rfl⟩

/-- The next part did not come. -/
theorem stopped (h : Gathered s) {f : FetchError} (hf : tooLarge (.error f) = false) {n : Nat}
    (hn : s.fetched.length + 1 ≤ n) : Stopped n (s.got (.error f)) f.toSend where
  again := h.again
  early := h.early
  length := by simpa [Seen.got] using hn
  late := h.got_late _
  said := fun hann hlate => by
    have hannounced : s.announced = true := hann
    simp [Seen.got, hannounced] at hlate
  unsaid := fun hann => by
    have hannounced : s.announced = false := hann
    have hlate := h.late_of_unsaid hannounced
    refine ⟨by simp [Seen.got, hannounced, hlate], ?_⟩
    have hfailed : s.fetched.any passing = false := h.failed
    cases hp : passing (.error f) with
    | true => exact .inl ⟨by simp [Seen.failed, Seen.got, hp], f, hp, rfl⟩
    | false =>
        have hmissing : sourceMissing (.error f) = true := by
          simpa [passing, hf] using hp
        exact .inr ⟨by simp [Seen.failed, Seen.got, hp, hfailed],
          .inr (by simp [Seen.got, hmissing])⟩

/-- The cover of the next part did not come. -/
theorem bare (h : Gathered s) (file : LocalFile) (e : SendError) {n : Nat}
    (hn : s.fetched.length + 1 ≤ n) : Stopped n (s.got (.ok file)).bare e where
  again := h.again
  early := h.early
  length := by simpa [Seen.bare, Seen.got] using hn
  late := h.got_late _
  said := fun hann hlate => by
    have hannounced : s.announced = true := hann
    simp [Seen.bare, Seen.got, hannounced] at hlate
  unsaid := fun hann => by
    have hannounced : s.announced = false := hann
    have hlate := h.late_of_unsaid hannounced
    exact ⟨by simp [Seen.bare, Seen.got, hannounced, hlate], .inr ⟨(h.file file).failed, .inl rfl⟩⟩

/-- The line about a part that is too large did not come. -/
theorem unnamed (h : Gathered s) (e : SendError) {n : Nat} (hn : s.fetched.length ≤ n)
    (hann : s.announced = true) : Stopped n s e where
  again := h.again
  early := h.early
  length := hn
  late := h.late
  said := fun _ _ => ⟨h.failed, h.uncovered, h.sourced⟩
  unsaid := fun h => by rw [hann] at h; cases h

end Gathered

namespace MaxMediaDelivery

variable (d : MaxMediaDelivery) (hd : d.sender.Quietly)
include hd

/-- The loop over the parts: `k` of `n` have been fetched. -/
theorem sees_gather (caption : Option String) (entities : Entities) (replyTo : Option Int) {n : Nat}
    (rest : List MaxAttachment) (items : List OutgoingMedia) {s : Seen} (hs : Gathered s)
    (hn : s.fetched.length + rest.length = n) (hitems : items = [] → s.fetched.all tooLarge = true) :
    Sees (d.gather caption entities replyTo rest items) s fun t res =>
      match res with
      | .ok items => Gathered t ∧ t.fetched.length = n ∧
          (items = [] → t.fetched.all tooLarge = true)
      | .error e => Stopped n t e := by
  induction rest generalizing s items with
  | nil => exact sees_pure ⟨hs, hn, hitems⟩
  | cons a rest ih =>
      have hle : s.fetched.length + 1 ≤ n := by
        rw [← hn, List.length_cons]
        omega
      refine (sees_fetch a).bind (fun t e h => absurd h (by simp)) fun t r h => ?_
      obtain ⟨_, hr, rfl⟩ := h
      cases hr
      rcases r with (limit | ⟨code, text⟩ | f) | file
      · refine (sees_announcing (hd.sendText _ _ _ _)).bind (fun t e h => ?_) fun t sent h => ?_
        · subst h
          exact (hs.named limit).unnamed e (by simpa [Seen.said, Seen.got] using hle) rfl
        · subst h
          refine ih items (hs.named limit) ?_ fun hnil => ?_
          · simp only [Seen.said, Seen.got, List.length_append, List.length_cons,
              List.length_nil] at hn ⊢
            omega
          · simp [Seen.said, Seen.got, tooLarge, hitems hnil]
      · exact sees_raise (hs.stopped rfl hle)
      · exact sees_raise (hs.stopped rfl hle)
      · refine (sees_cover a file).bind (fun t e h => ?_) fun t thumbnail h => ?_
        · subst h
          exact hs.bare file e hle
        · subst h
          refine ih _ (hs.file file) ?_ fun hnil => ?_
          · simp only [Seen.got, List.length_append, List.length_cons, List.length_nil] at hn ⊢
            omega
          · exact absurd hnil (by simp)

/-- An album of two parts or more that was not stopped has made its mark. -/
theorem sees_sendAlbum {attachments : List MaxAttachment} (htwo : 2 ≤ attachments.length)
    (caption : Option String) (entities : Entities) (replyTo : Option Int) :
    Sees (d.sendAlbum attachments caption entities replyTo) {} fun t res =>
      (∃ g, Gathered g ∧ g.fetched.length = attachments.length ∧ t = g.said) ∨
        ∃ e, res = .error e ∧ Stopped attachments.length t e := by
  refine (d.sees_gather hd caption entities replyTo attachments [] (s := {})
    ⟨rfl, rfl, rfl, rfl, rfl, nofun⟩ (by simp) fun _ => rfl).bind
    (fun t e h => .inr ⟨e, rfl, h⟩) fun t items h => ?_
  obtain ⟨hg, hlen, hnil⟩ := h
  rcases items with _ | ⟨item, _ | ⟨item', items⟩⟩
  · refine sees_pure (.inl ⟨t, hg, hlen, (Seen.said_of_announced ?_).symm⟩)
    have hall := hnil rfl
    obtain ⟨r, l, hrl⟩ := List.exists_cons_of_length_pos (Nat.lt_of_lt_of_le Nat.zero_lt_two
      (hlen ▸ htwo))
    rw [hg.announced]
    rw [hrl] at hall ⊢
    simp_all
  · refine (d.sees_dispatch hd item replyTo t).bind (fun t' e h => ?_) fun t' sent h => ?_
    · exact .inl ⟨t, hg, hlen, h⟩
    · exact sees_pure (.inl ⟨t, hg, hlen, h⟩)
  · refine (sees_announcing (hd.sendAlbum _ replyTo)).bind (fun t' e h => ?_) fun t' receipt h => ?_
    · exact .inl ⟨t, hg, hlen, h⟩
    · split
      · exact sees_raise (.inl ⟨t, hg, hlen, h⟩)
      · exact sees_pure (.inl ⟨t, hg, hlen, h⟩)

end MaxMediaDelivery

/-! ## the whole delivery -/

/-- What has been seen at the end is ready for the mark iff the fetches say so. -/
def Judged {α : Type} (message : IncomingMaxMessage) (caption : String) (t : Seen)
    (res : Except SendError α) : Prop :=
  t.Ready res ↔ onTime message t.fetched = true ∧
    (t.failed = true ∨ announces message caption t = true)

theorem verdict_of_passing {f : FetchError} (h : passing (.error f) = true) (kind : JobKind) :
    (settle kind f.toSend false).verdict = .retry := by
  rcases f with limit | ⟨code, text⟩ | (_ | ⟨name, text⟩)
  · cases h
  · simp [FetchError.toSend, settle]
  · simp [FetchError.toSend, Fault.toSend, settle]
  · simp [FetchError.toSend, Fault.toSend, settle]

section

variable {α : Type} {message : IncomingMaxMessage} {caption : String} {s t : Seen}
  {res : Except SendError α}

/-- The mark was made: all is well unless something was fetched after it. -/
theorem judged_of_announced (hann : t.announced = true) (hagain : t.again = false)
    (hearly : t.early = false) (hlate : t.late = !onTime message t.fetched)
    (hclean : t.late = false → t.failed = false ∧ announces message caption t = true) :
    Judged message caption t res := by
  unfold Judged Seen.Ready
  cases h : t.late with
  | true =>
      have hon : onTime message t.fetched = false := by simpa [h] using hlate.symm
      simp [hann, hon]
  | false =>
      have hon : onTime message t.fetched = true := by simpa [h] using hlate.symm
      simp [hann, hagain, hearly, hon, hclean h]

/-- Nothing was announced or fetched too late: all is well iff a download failed. -/
theorem judged_of_unsaid (hann : t.announced = false) (hearly : t.early = false)
    (hon : onTime message t.fetched = true)
    (hfailed : t.failed = true ∧ (∃ f, passing (.error f) = true ∧ res = .error f.toSend) ∨
      t.failed = false ∧ announces message caption t = false) : Judged message caption t res := by
  unfold Judged Seen.Ready
  rcases hfailed with ⟨hfailed, f, hf, rfl⟩ | ⟨hfailed, hno⟩
  · simp only [hfailed, hon, hann, hearly, if_true, true_and, true_or, iff_true]
    exact ⟨_, rfl, verdict_of_passing hf⟩
  · simp [hfailed, hon, hann, hno]

/-- After the mark: what was well stays so unless a further attachment is fetched. -/
theorem Seen.Then.judged (h : s.Then t) (hagain : s.again = false) (hearly : s.early = false)
    (hlate : s.late = !onTime message s.fetched)
    (hfull : ∀ r rest, onTime message (s.fetched ++ r :: rest) = false)
    (hclean : s.late = false → s.failed = false ∧ announces message caption s = true) :
    Judged message caption t res := by
  obtain ⟨rest, hfetched, hlater, huncovered⟩ := h.fetched
  refine judged_of_announced h.announced (h.again.trans hagain) (h.early.trans hearly) ?_ ?_
  · cases rest with
    | nil => simp [hlater, hfetched, hlate]
    | cons r rest => simp [hlater, hfetched, hfull]
  · cases rest with
    | nil =>
        simp only [List.append_nil, List.isEmpty_nil, Bool.not_true, Bool.or_false] at hfetched hlater
        intro hno
        rw [hlater] at hno
        simpa [Seen.failed, announces, hfetched, huncovered rfl] using hclean hno
    | cons r rest => simp [hlater]

theorem onTime_album (halbum : albumAttachments message ≠ []) (fetched : List Fetched) :
    onTime message fetched = (decide (fetched.length ≤ (albumAttachments message).length) &&
      !fetched.dropLast.any tooLarge) := by
  simp [onTime, halbum]

theorem onTime_single (halbum : albumAttachments message = []) (fetched : List Fetched) :
    onTime message fetched = decide (fetched.length ≤
      if message.attachments.head?.any (·.kind.isFile) then 1 else 0) := by
  simp [onTime, halbum]

theorem Stopped.judged (halbum : albumAttachments message ≠ []) {e : SendError}
    (h : Stopped (albumAttachments message).length t e) (hres : res = .error e) :
    Judged message caption t res := by
  have hon : onTime message t.fetched = !t.late := by
    simp [onTime_album halbum, h.length, h.late]
  have hsome : message.attachments ≠ [] := by
    rintro hnil
    simp [albumAttachments, hnil] at halbum
  cases hann : t.announced with
  | true =>
      refine judged_of_announced hann h.again h.early (by simp [hon]) fun hlate => ?_
      obtain ⟨hfailed, huncovered, hsourced⟩ := h.said hann hlate
      exact ⟨hfailed, by simp [announces, hsome, huncovered, hsourced]⟩
  | false =>
      obtain ⟨hlate, hor⟩ := h.unsaid hann
      refine judged_of_unsaid hann h.early (by simp [hon, hlate]) ?_
      rcases hor with ⟨hfailed, f, hf, rfl⟩ | ⟨hfailed, hor⟩
      · exact .inl ⟨hfailed, f, hf, hres⟩
      · refine .inr ⟨hfailed, ?_⟩
        rcases hor with huncovered | hmissing
        · simp [announces, huncovered]
        · simp [announces, hmissing, halbum]

end

/-- The mark is made and whatever follows is judged so; or the delivery ends here. -/
def Opened {α : Type} (message : IncomingMaxMessage) (caption : String) (t : Seen)
    (res : Except SendError α) : Prop :=
  (t.announced = true ∧ ∀ u (res' : Except SendError DeliveryReceipt), t.Then u →
      Judged message caption u res') ∨
    ∃ e, res = .error e ∧ Judged message caption t (.error e : Except SendError DeliveryReceipt)

section

variable {α β : Type} {message : IncomingMaxMessage} {caption : String} {s : Seen} {x : Delivering α}

theorem Opened.bind {f : α → Delivering β} (hx : Sees x s (Opened message caption))
    (hf : ∀ a, Follows (f a)) : Sees (x >>= f) s (Opened message caption) := by
  refine hx.bind (fun t e h => ?_) fun t a h => ?_
  · exact h.imp_right fun ⟨e', he, hj⟩ => by cases he; exact ⟨e, rfl, hj⟩
  · rcases h with ⟨hann, hall⟩ | ⟨e, he, _⟩
    · exact (hf a t hann).mono fun u _ hu =>
        .inl ⟨hu.announced, fun v res' hv => hall v res' (hu.trans hv)⟩
    · cases he

/-- The end of a delivery. -/
theorem Opened.finish {f : α → Delivering DeliveryReceipt} (hx : Sees x s (Opened message caption))
    (hf : ∀ a, Follows (f a)) : Sees (x >>= f) s (Judged message caption) := by
  refine hx.bind (fun t e h => ?_) fun t a h => ?_
  · rcases h with ⟨hann, hall⟩ | ⟨e', he, hj⟩
    · exact hall t _ (.refl hann)
    · cases he
      exact hj
  · rcases h with ⟨hann, hall⟩ | ⟨e, he, _⟩
    · exact (hf a t hann).mono fun u res hu => hall u res hu
    · cases he

end

namespace MaxMediaDelivery

variable (d : MaxMediaDelivery) (hd : d.sender.Quietly) {message : IncomingMaxMessage}
include hd

/-- What is said after the attachments, from after the mark. -/
theorem follows_rest (receipt : Option Int → DeliveryReceipt) (isOutgoing : Bool)
    (replyTo : Option Int) (rest : List MaxAttachment) (caption : Option String)
    (entities : Entities) (first : Option Int) (tail : String) :
    Follows (do
      let first ← d.sendSingles isOutgoing replyTo rest caption entities first
      let first ← d.sendTail tail replyTo first
      pure (receipt first)) :=
  (d.follows_sendSingles hd isOutgoing replyTo rest caption entities first).bind fun _ =>
    (d.follows_sendTail hd tail replyTo _).bind fun _ => follows_pure _

theorem sees_album (halbum : albumAttachments message ≠ []) (caption : String)
    (entities : Entities) (replyTo : Option Int) :
    Sees (d.deliverReceipt message caption entities replyTo) {} (Judged message caption) := by
  have htwo : 2 ≤ (albumAttachments message).length := by
    unfold albumAttachments at halbum ⊢
    dsimp only at halbum ⊢
    split
    · rw [if_pos ‹_›] at halbum
      exact absurd rfl halbum
    · omega
  have hsome : message.attachments ≠ [] := by
    rintro hnil
    simp [albumAttachments, hnil] at halbum
  have hgathered : ∀ {α : Type} {g t : Seen} {res : Except SendError α}, Gathered g →
      g.fetched.length = (albumAttachments message).length → g.said.Then t →
      Judged message caption t res := by
    intro α g t res hg hlen ht
    refine ht.judged hg.again hg.early ?_ (fun r rest => ?_) fun _ => ⟨hg.failed, ?_⟩
    · simp [Seen.said, onTime_album halbum, hlen, hg.late]
    · simp [Seen.said, onTime_album halbum, ← hlen]
    · simp [announces, Seen.said, hsome, hg.uncovered, hg.sourced]
  unfold deliverReceipt
  generalize splitCaption caption = halves
  dsimp only
  rw [if_neg (by simpa using halbum)]
  refine (d.sees_sendAlbum hd htwo _ entities replyTo).bind (fun t e h => ?_) fun t parts h => ?_
  · rcases h with ⟨g, hg, hlen, rfl⟩ | ⟨e', he, h⟩
    · exact hgathered hg hlen (.refl rfl)
    · cases he
      exact h.judged halbum rfl
  · rcases h with ⟨g, hg, hlen, rfl⟩ | ⟨e', he, _⟩
    · exact (d.follows_rest hd _ _ _ _ _ _ _ _ _ rfl).mono fun t res => hgathered hg hlen
    · cases he

/-- The first attachment, where there is no album: the mark is made, or the delivery ends. -/
theorem sees_first (halbum : albumAttachments message = []) {a : MaxAttachment}
    (hhead : message.attachments.head? = some a) (whole : String) (isOutgoing : Bool)
    (caption : Option String) (entities : Entities) (replyTo : Option Int) :
    Sees (d.sendOne isOutgoing a caption entities replyTo) {} (Opened message whole) := by
  have hsome : message.attachments ≠ [] := by
    rintro hnil
    simp [hnil] at hhead
  cases hfile : a.kind.isFile with
  | false =>
      have hon : ∀ fetched, onTime message fetched = decide (fetched.length ≤ 0) := by
        simp [onTime_single halbum, hhead, hfile]
      refine (d.sees_sendOne_line hd hfile isOutgoing caption entities replyTo {}).mono
        fun t res h => .inl ?_
      subst h
      refine ⟨rfl, fun u res' hu => hu.judged rfl rfl ?_ ?_ fun _ => ⟨rfl, ?_⟩⟩
      · simp [Seen.said, hon]
      · simp [hon]
      · simp [announces, Seen.said, hsome, halbum]
  | true =>
      have hon : ∀ fetched, onTime message fetched = decide (fetched.length ≤ 1) := by
        simp [onTime_single halbum, hhead, hfile]
      rw [d.sendOne_eq_sendFile hfile]
      refine (d.sees_sendFile hd a caption entities replyTo {}).mono fun t res h => ?_
      obtain ⟨r, ⟨e, he, rfl, rfl, rfl⟩ | ⟨hr, ⟨e, rfl, hok, rfl⟩ | rfl⟩⟩ := h
      · refine .inr ⟨_, rfl, judged_of_unsaid rfl rfl ?_ (.inl ⟨?_, e, he, rfl⟩)⟩
        · simp [Seen.got, hon]
        · simp [Seen.failed, Seen.got, he]
      · refine .inr ⟨_, rfl, judged_of_unsaid rfl rfl ?_ (.inr ⟨?_, ?_⟩)⟩
        · simp [Seen.bare, Seen.got, hon]
        · simp [Seen.failed, Seen.bare, Seen.got, hr]
        · simp [announces, Seen.bare]
      · refine .inl ⟨rfl, fun u res' hu => hu.judged rfl rfl ?_ ?_ fun _ => ⟨?_, ?_⟩⟩
        · simp [Seen.said, Seen.got, hon]
        · simp [Seen.said, Seen.got, hon]
        · simp [Seen.failed, Seen.said, Seen.got, hr]
        · simp [announces, Seen.said, Seen.got, hsome, halbum]

theorem sees_single (halbum : albumAttachments message = []) (caption : String)
    (entities : Entities) (replyTo : Option Int) :
    Sees (d.deliverReceipt message caption entities replyTo) {} (Judged message caption) := by
  have hsingles : singleAttachments message = message.attachments := by
    simp [singleAttachments, halbum]
  have hon : onTime message [] = true := by
    simp [onTime_single halbum]
  unfold deliverReceipt
  generalize hhalves : splitCaption caption = halves
  dsimp only
  rw [if_pos (by simp [halbum]), hsingles]
  refine (sees_pure (Q := fun t res => t = {} ∧ res = .ok ([], none)) ⟨rfl, rfl⟩).bind
    (fun t e h => by cases h.2) fun t parts h => ?_
  obtain ⟨rfl, hparts⟩ := h
  cases hparts
  cases hlist : message.attachments with
  | nil =>
      refine (sees_pure (Q := fun t res => t = {} ∧ res = .ok none) ⟨rfl, rfl⟩).bind
        (fun t e h => by cases h.2) fun t first h => ?_
      obtain ⟨rfl, _⟩ := h
      unfold sendTail
      split
      case isTrue htail =>
        refine sees_pure (judged_of_unsaid rfl rfl hon (.inr ⟨rfl, ?_⟩))
        simp [announces, hlist, hhalves, htail]
      case isFalse htail =>
        refine Opened.finish (Opened.bind ((sees_announcing (hd.sendText _ _ _ _)).mono
          fun t res h => ?_) fun sent => follows_pure _) fun first => follows_pure _
        subst h
        refine .inl ⟨rfl, fun u res' hu => hu.judged rfl rfl ?_ (fun r rest => ?_) fun _ => ⟨rfl, ?_⟩⟩
        · simp [Seen.said, hon]
        · simp [onTime_single halbum, hlist]
        · simp [announces, Seen.said, hhalves, htail, halbum]
  | cons a rest =>
      have hhead : message.attachments.head? = some a := by simp [hlist]
      refine Opened.finish (Opened.bind (d.sees_first hd halbum hhead caption _ _ _ _) fun sent => ?_)
        fun first => ?_
      · exact d.follows_sendSingles hd _ _ rest _ _ _
      · exact (d.follows_sendTail hd _ _ first).bind fun _ => follows_pure _

theorem sees_deliverReceipt (message : IncomingMaxMessage) (caption : String) (entities : Entities)
    (replyTo : Option Int) :
    Sees (d.deliverReceipt message caption entities replyTo) {} (Judged message caption) := by
  by_cases halbum : albumAttachments message = []
  · exact d.sees_single hd halbum caption entities replyTo
  · exact d.sees_album hd halbum caption entities replyTo

end MaxMediaDelivery

/-- **The mark is made when everything is ready.**  An attempt keeps the guarantee of
`on_sending` iff what it fetched was fetched before anything was to be said, and then
either a download failed or there was something to say. -/
theorem marked_when_ready (w : Wiring) {sender : TelegramMediaSender}
    (hsender : sender = mtprotoOwnerSender ∨ ∃ bot, sender = registryMediaSender bot)
    (message : IncomingMaxMessage) (caption : String) (entities : Entities) (replyTo : Option Int)
    {tr : List (Asked Call.Outcome)} {res : Except SendError (DeliveryReceipt × Bool)}
    (h : Runs (((w.delivery sender).deliverReceipt message caption entities replyTo).run false)
      tr res) :
    (Seen.of tr).Ready res ↔ onTime message (Seen.of tr).fetched = true ∧
      ((Seen.of tr).failed = true ∨ announces message caption (Seen.of tr) = true) := by
  have hquietly : sender.Quietly := by
    rcases hsender with rfl | ⟨bot, rfl⟩
    · exact quietly_mtprotoOwnerSender
    · exact quietly_registryMediaSender bot
  have hsees := (w.delivery sender).sees_deliverReceipt hquietly message caption entities replyTo
  have hjudged : Judged message caption (Seen.of tr) (res.map Prod.fst) := hsees.runs h
  cases res with
  | ok p => simpa [Judged, Seen.Ready, Except.map] using hjudged
  | error e => simpa [Judged, Seen.Ready, Except.map] using hjudged

/-! ## two runs -/

/-- The first attachment that is asked for comes; `later` is what comes of the others. -/
private def fetching (later : Fetched) (past : List (Asked Call.Outcome)) : (c : Call) → c.Outcome
  | .fetch _ => if past.isEmpty then .ok ⟨"voice.ogg", "voice.ogg"⟩ else later
  | .cover _ => .ok none
  | .sending => .ok ()
  | .registered => true
  | .session => true
  | .send (.file ..) _ => .ok (some 10)
  | .send _ _ => .error (.fault .cancelled)
  | .noteOrigin .. => .ok ()
  | .seedBaseline _ => .ok ()
  | .settleAlbum .. => .ok none
  | .attachTelegram .. => .ok ()
  | .attachOwner .. => .ok ()

/-- The voice messages of one message of MAX, over the contact bot. -/
private def sendsVoices (n : Nat) (later : Fetched) :
    List (Asked Call.Outcome) × Except SendError (DeliveryReceipt × Bool) :=
  play (fetching later) []
    (((Wiring.mk 20971520 false none).delivery (registryMediaSender 5)).deliverReceipt
      ⟨false, List.replicate n { kind := .voice }⟩ "" none none false)

/-- One voice message. -/
theorem marked_when_ready_voice :
    (Seen.of (sendsVoices 1 (.ok ⟨"b.ogg", "b.ogg"⟩)).1).Ready
      (sendsVoices 1 (.ok ⟨"b.ogg", "b.ogg"⟩)).2 :=
  (marked_when_ready ⟨20971520, false, none⟩ (.inr ⟨5, rfl⟩) ⟨false, [{ kind := .voice }]⟩ "" none
    none (runs_play (fetching (.ok ⟨"b.ogg", "b.ogg"⟩)) [] _)).mpr ⟨rfl, .inr rfl⟩

/-- Two voice messages: the first is in the chat when the second cannot be fetched. -/
theorem not_marked_when_ready :
    ¬ ∀ (w : Wiring) (sender : TelegramMediaSender),
      (sender = mtprotoOwnerSender ∨ ∃ bot, sender = registryMediaSender bot) →
      ∀ (message : IncomingMaxMessage) (caption : String) (entities : Entities)
        (replyTo : Option Int) (tr : List (Asked Call.Outcome))
        (res : Except SendError (DeliveryReceipt × Bool)),
        Runs (((w.delivery sender).deliverReceipt message caption entities replyTo).run false)
          tr res → (Seen.of tr).Ready res := by
  intro h
  have hready := h ⟨20971520, false, none⟩ (registryMediaSender 5) (.inr ⟨5, rfl⟩)
    ⟨false, List.replicate 2 { kind := .voice }⟩ "" none none _ _
    (runs_play (fetching (.error (.unavailable "timeout" "MAX did not answer"))) [] _)
  exact absurd hready.1 (by decide)

end Telemax.Media
