import Telemax.Lib.Trim
import Telemax.Media.FirstSend

/-!
# Telemax.Media.Words

The words of a caption on their way into the chat.  `Heard` reads off a run what
came of the fetches and every text and caption Telegram took; a delivery that
returns has said the caption as often as it rides along (`rides`), next to the
lines the bridge writes itself (`ownLines`).
-/

namespace Telemax.Media

open Script

/-! ## reading a run -/

/-- The text says these words: they are all of it, or the lines it begins with. -/
def reads (words text : String) : Bool :=
  text = words || (words ++ "\n").toList.isPrefixOf text.toList

/-- The texts and captions a creating call carries.  A video note and a sticker of
the Bot API take none. -/
def Content.texts : Content → List String
  | .file .videoNote _ => []
  | .file .sticker _ => []
  | .file _ m => m.caption.toList
  | .group items => items.flatMap (·.caption.toList)
  | .message text _ _ => [text]
  | .contact .. => []
  | .photoUrl _ caption _ => [caption]
  | .ownFile _ m => m.caption.toList
  | .ownAlbum _ caption _ => caption.toList
  | .ownMessage text _ => [text]

/-- What a run has come to. -/
structure Heard where
  fetched : List Fetched := []
  /-- What was said, in order: by the calls that were accepted. -/
  said : List String := []
  /-- Was a sticker taken as one? -/
  stickers : List Bool := []

namespace Heard

def next (s : Heard) : (c : Call) → c.Outcome → Heard
  | .fetch _, r => { s with fetched := s.fetched ++ [r] }
  | .send (.file .sticker _) _, r => { s with stickers := s.stickers ++ [r.toBool] }
  | .send c _, r => { s with said := s.said ++ if r.toBool then c.texts else [] }
  | _, _ => s

def reader : Protocol Call.Outcome Heard where
  allowed _ _ := True
  next := next

/-- A run, read from its beginning. -/
def of (tr : List (Asked Call.Outcome)) : Heard := reader.after {} tr

/-- Some more was said. -/
def say (s : Heard) (texts : List String) : Heard := { s with said := s.said ++ texts }

/-- A sticker was offered. -/
def offered (s : Heard) (taken : Bool) : Heard := { s with stickers := s.stickers ++ [taken] }

/-- An attachment was fetched. -/
def got (s : Heard) (r : Fetched) : Heard := { s with fetched := s.fetched ++ [r] }

@[simp] theorem say_nil (s : Heard) : s.say [] = s := by
  simp [say]

@[simp] theorem say_say (s : Heard) (l l' : List String) : (s.say l).say l' = s.say (l ++ l') := by
  simp [say]

end Heard

/-- From `s` a result is returned in `Q` only. -/
def Returns {α : Type} (x : SendScript α) (s : Heard) (Q : Heard → α → Prop) : Prop :=
  Obeys Heard.reader s x fun t res => ∀ a, res = .ok a → Q t a

section

variable {α β : Type} {s : Heard} {x : SendScript α}

theorem returns_pure {a : α} {Q : Heard → α → Prop} (h : Q s a) : Returns (pure a) s Q := by
  rintro _ ⟨⟩
  exact h

theorem returns_throw {e : SendError} {Q : Heard → α → Prop} : Returns (throw e) s Q :=
  fun _ h => by cases h

theorem Returns.bind {f : α → SendScript β} {P : Heard → α → Prop} {Q : Heard → β → Prop}
    (hx : Returns x s P) (hf : ∀ t a, P t a → Returns (f a) t Q) : Returns (x >>= f) s Q :=
  Obeys.bind hx (fun _ _ _ _ h => by cases h) fun t a h => hf t a (h a rfl)

theorem Returns.mono {P Q : Heard → α → Prop} (h : Returns x s P) (himp : ∀ t a, P t a → Q t a) :
    Returns x s Q :=
  Obeys.mono h fun t _ hp a ha => himp t a (hp a ha)

/-- An error that is handled by another one. -/
theorem Returns.tryCatch {h : SendError → SendScript α} {Q : Heard → α → Prop}
    (hx : Returns x s Q) (hh : ∀ t e, Returns (h e) t Q) :
    Returns (MonadExcept.tryCatch x h) s Q :=
  Obeys.tryCatch hx (fun _ _ h => h) fun t e _ => hh t e

theorem returns_ask (c : Call) : Returns (ask c) s fun t r => t = s.next c r :=
  ⟨trivial, fun r a ha => by cases ha; rfl⟩

/-- A list of calls, each with its texts. -/
theorem returns_mapM {f : α → SendScript β} {texts : α → List String} {l : List α}
    (hf : ∀ s, ∀ a ∈ l, Returns (f a) s fun t _ => t = s.say (texts a)) :
    Returns (l.mapM' f) s fun t _ => t = s.say (l.flatMap texts) := by
  induction l generalizing s with
  | nil => exact returns_pure (Heard.say_nil s).symm
  | cons a l ih =>
      refine (hf s a List.mem_cons_self).bind fun t b h => ?_
      subst h
      refine (ih fun s a ha => hf s a (List.mem_cons_of_mem _ ha)).bind fun t bs h => ?_
      subst h
      exact returns_pure (by simp)

theorem returns_checkAlbumReceipt (ids : List Int) (n : Nat) :
    Returns (checkAlbumReceipt ids n) s fun t _ => t = s := by
  unfold checkAlbumReceipt
  split
  · exact returns_throw
  · exact returns_pure rfl

/-- Where a run leads. -/
theorem Returns.runs {Q : Heard → α → Prop} (h : Returns x s Q) {tr : List (Asked Call.Outcome)}
    {a : α} (hr : Runs x tr (.ok a)) : Q (Heard.reader.after s tr) a :=
  Obeys.runs h hr a rfl

end

attribute [irreducible] Returns

/-! ## the senders -/

/-- Who puts a delivery into the chat. -/
inductive Voice
  | bot (botId : Int)
  | owner
  deriving DecidableEq

namespace Voice

def sender : Voice → TelegramMediaSender
  | bot botId => registryMediaSender botId
  | owner => mtprotoOwnerSender

/-- What is said of a contact that has a phone: only the owner's session needs a line. -/
def contactLines (v : Voice) (firstName : String) (lastName : Option String) : List String :=
  match v with
  | bot _ => []
  | owner => [contactCard (strip (" ".intercalate ([firstName, lastName.getD ""].filter (· ≠ ""))))]

/-- After `s` a sticker with this caption has been sent. -/
def StickerSent (v : Voice) (caption : Option String) (s t : Heard) : Prop :=
  match v with
  | bot _ => ∃ taken, t = (s.offered taken).say (if taken then [] else caption.toList)
  | owner => t = s.say caption.toList

end Voice

namespace RegistryMediaSender

variable (botId : Int) {s : Heard}

theorem returns_bot : Returns (bot botId) s fun t _ => t = s := by
  refine (returns_ask _).bind fun t live h => ?_
  cases live with
  | true => exact returns_pure h
  | false => exact returns_throw

theorem returns_idOf (raw : Option Int) : Returns (idOf raw) s fun t _ => t = s := by
  unfold idOf
  split
  · exact returns_throw
  · split
    · exact returns_throw
    · exact returns_pure rfl

theorem returns_answered (r : Except RemoteFault (Option Int)) {Q : Heard → Int → Prop}
    (h : ∀ raw a, r = .ok raw → Q s a) : Returns (answered r) s Q := by
  cases r with
  | ok raw => exact (returns_idOf raw).mono fun t a ht => ht ▸ h raw a rfl
  | error f => exact returns_throw

theorem returns_document (m : OutgoingMedia) (replyTo : Option Int) :
    Returns (document botId m replyTo) s fun t _ => t = s.say m.caption.toList := by
  refine (returns_bot botId).bind fun t _ h => ?_
  subst h
  refine (returns_ask _).bind fun t r h => returns_answered r ?_
  rintro raw a rfl
  exact h

theorem returns_sendText (text : String) (replyTo : Option Int) (entities : Entities)
    (buttons : Buttons) :
    Returns (sendText botId text replyTo entities buttons) s fun t _ => t = s.say [text] := by
  refine (returns_bot botId).bind fun t _ h => ?_
  subst h
  refine (returns_ask _).bind fun t r h => returns_answered r ?_
  rintro raw a rfl
  exact h

theorem returns_inForm {form : Form} {m : OutgoingMedia} {replyTo : Option Int}
    {accepted : Int → SendScript Int} {fallback : SendScript Int} {Q : Heard → Int → Prop}
    (haccepted : ∀ raw message,
      Returns (accepted message) (s.next (.send (.file form m) replyTo) (.ok raw)) Q)
    (hfallback : ∀ f, Returns fallback (s.next (.send (.file form m) replyTo) (.error f)) Q) :
    Returns (inForm botId form m replyTo accepted fallback) s Q := by
  refine (returns_bot botId).bind fun t _ h => ?_
  subst h
  refine (returns_ask _).bind fun t r h => ?_
  subst h
  rcases r with (error | error | fault) | raw
  · cases error with
    | badRequest text =>
        dsimp only
        split
        · exact hfallback _
        · exact returns_throw
    | _ => exact returns_throw
  · exact returns_throw
  · exact returns_throw
  · refine (returns_idOf raw).bind fun t message h => ?_
    subst h
    exact haccepted raw message

/-- A form with a caption, or the document. -/
theorem returns_captioned {form : Form} {m : OutgoingMedia} {replyTo : Option Int}
    (hok : ∀ raw, s.next (.send (.file form m) replyTo) (.ok raw) = s.say m.caption.toList)
    (herror : ∀ f, s.next (.send (.file form m) replyTo) (.error f) = s) :
    Returns (inForm botId form m replyTo pure (document botId m replyTo)) s
      fun t _ => t = s.say m.caption.toList := by
  refine returns_inForm botId (fun raw message => returns_pure (hok raw)) fun f => ?_
  rw [herror f]
  exact returns_document botId m replyTo

theorem returns_sendPhoto (m : OutgoingMedia) (replyTo : Option Int) :
    Returns (sendPhoto botId m replyTo) s fun t _ => t = s.say m.caption.toList :=
  returns_captioned botId (fun _ => rfl) fun _ => Heard.say_nil s

theorem returns_sendVideo (m : OutgoingMedia) (replyTo : Option Int) :
    Returns (sendVideo botId m replyTo) s fun t _ => t = s.say m.caption.toList :=
  returns_captioned botId (fun _ => rfl) fun _ => Heard.say_nil s

theorem returns_sendVideoNote {m : OutgoingMedia} (hm : m.caption ≠ some "")
    (replyTo : Option Int) :
    Returns (sendVideoNote botId m replyTo) s fun t _ => t = s.say m.caption.toList := by
  refine returns_inForm botId (fun raw message => ?_) fun f => ?_
  · change Returns _ (s.say []) _
    rw [Heard.say_nil]
    cases hcaption : m.caption with
    | none => exact returns_pure (Heard.say_nil s).symm
    | some caption =>
        have hne : caption ≠ "" := fun h => hm (by rw [hcaption, h])
        simp only [Option.filter_some, hne, ne_eq, not_false_eq_true, decide_true, if_true]
        refine (returns_sendText botId caption _ none none).bind fun t _ h => ?_
        exact returns_pure h
  · change Returns _ (s.say []) _
    rw [Heard.say_nil]
    exact returns_sendVideo botId _ replyTo

/-- Every form but the sticker. -/
theorem returns_sendFile {form : Form} (hform : form ≠ .sticker) {m : OutgoingMedia}
    (hm : m.caption ≠ some "") (replyTo : Option Int) :
    Returns (sendFile botId form m replyTo) s fun t _ => t = s.say m.caption.toList := by
  cases form with
  | photo => exact returns_sendPhoto botId m replyTo
  | video => exact returns_sendVideo botId m replyTo
  | videoNote => exact returns_sendVideoNote botId hm replyTo
  | document => exact returns_document botId m replyTo
  | sticker => exact absurd rfl hform
  | voice | audio => exact returns_captioned botId (fun _ => rfl) fun _ => Heard.say_nil s

theorem returns_sendSticker (m : OutgoingMedia) (replyTo : Option Int) :
    Returns (sendSticker botId m replyTo) s fun t _ =>
      (Voice.bot botId).StickerSent m.caption s t := by
  refine returns_inForm botId (fun raw message => ?_) fun f => ?_
  · exact returns_pure ⟨true, (Heard.say_nil _).symm⟩
  · exact (returns_sendPhoto botId m replyTo).mono fun t _ h => ⟨false, h⟩

theorem returns_dispatchSingle (replyTo : Option Int) (m : OutgoingMedia) :
    Returns (dispatchSingle botId replyTo m) s fun t _ => t = s.say m.caption.toList := by
  unfold dispatchSingle
  split
  · exact returns_sendPhoto botId m replyTo
  · exact returns_sendVideo botId m replyTo

theorem returns_sendAlbum (items : List OutgoingMedia) (replyTo : Option Int) :
    Returns (sendAlbum botId items replyTo) s fun t _ =>
      t = s.say (items.flatMap (·.caption.toList)) := by
  refine (returns_bot botId).bind fun t _ h => ?_
  subst h
  refine (returns_ask _).bind fun t r h => ?_
  subst h
  rcases r with (error | error | fault) | answer
  · cases error with
    | badRequest text =>
        dsimp only
        split
        · change Returns _ (Heard.say _ []) _
          rw [Heard.say_nil]
          refine (returns_mapM fun s m _ => returns_dispatchSingle botId replyTo m).bind
            fun t ids h => ?_
          subst h
          exact (returns_checkAlbumReceipt ids items.length).bind fun t _ h => returns_pure h
        · exact returns_throw
    | _ => exact returns_throw
  · exact returns_throw
  · exact returns_throw
  · have hids : ∀ s : Heard, Returns (answer.ids.mapM' idOf) s fun t _ =>
        t = s.say (answer.ids.flatMap fun _ => []) := fun s =>
      returns_mapM fun s raw _ => (returns_idOf raw).mono
        fun t _ h => h.trans (Heard.say_nil s).symm
    refine (hids _).bind fun t ids h => ?_
    subst h
    refine (returns_checkAlbumReceipt ids items.length).bind fun t _ h => returns_pure ?_
    have hnone : answer.ids.flatMap (fun _ => ([] : List String)) = [] :=
      List.flatMap_eq_nil_iff.mpr fun _ _ => rfl
    rw [hnone, Heard.say_nil] at h
    exact h

theorem returns_sendContact (phone firstName : String) (lastName vcard : Option String)
    (replyTo : Option Int) :
    Returns (sendContact botId phone firstName lastName vcard replyTo) s fun t _ => t = s := by
  refine (returns_bot botId).bind fun t _ h => ?_
  subst h
  refine (returns_ask _).bind fun t r h => returns_answered r ?_
  rintro raw a rfl
  exact h.trans (Heard.say_nil _)

theorem returns_sendPhotoUrl (url caption : String) (replyTo : Option Int) (buttons : Buttons) :
    Returns (sendPhotoUrl botId url caption replyTo buttons) s fun t shown =>
      t = s.say (if shown.isSome then [caption] else []) := by
  refine (returns_bot botId).bind fun t _ h => ?_
  subst h
  refine (returns_ask _).bind fun t r h => ?_
  subst h
  rcases r with (error | error | fault) | raw
  · cases error with
    | badRequest text =>
        dsimp only
        split
        · exact returns_pure rfl
        · exact returns_throw
    | _ => exact returns_throw
  · exact returns_throw
  · exact returns_throw
  · refine (returns_idOf raw).bind fun t message h => returns_pure ?_
    exact h

end RegistryMediaSender

namespace MtprotoOwnerSender

variable {s : Heard}

theorem returns_require : Returns require s fun t _ => t = s := by
  refine (returns_ask _).bind fun t there h => ?_
  cases there with
  | true => exact returns_pure h
  | false => exact returns_throw

theorem returns_named (text : String) (r : Except RemoteFault (Option Int))
    {Q : Heard → Int → Prop} (h : ∀ message, r = .ok (some message) → Q s message) :
    Returns (named text r) s Q := by
  rcases r with f | _ | message
  · exact returns_throw
  · exact returns_throw
  · exact returns_pure (h message rfl)

theorem returns_place (form : Form) (m : OutgoingMedia) :
    Returns (place form m) s fun t _ => t = s.say m.caption.toList := by
  refine returns_require.bind fun t _ h => ?_
  subst h
  refine (returns_ask _).bind fun t r h => returns_named _ r ?_
  rintro message rfl
  exact h

theorem returns_sendText (text : String) (replyTo : Option Int) (entities : Entities)
    (buttons : Buttons) :
    Returns (sendText text replyTo entities buttons) s fun t _ => t = s.say [text] := by
  refine returns_require.bind fun t _ h => ?_
  subst h
  refine (returns_ask _).bind fun t r h => returns_named _ r ?_
  rintro message rfl
  exact h

theorem returns_grouped (items : List OutgoingMedia) :
    Returns (grouped items) s fun t _ =>
      t = s.say (items.head?.bind (·.caption)).toList := by
  refine returns_require.bind fun t _ h => ?_
  subst h
  refine (returns_ask _).bind fun t r h => ?_
  subst h
  rcases r with f | placed
  · exact returns_throw
  · dsimp only
    split
    · exact returns_throw
    · exact (returns_checkAlbumReceipt _ items.length).bind fun t _ h => returns_pure h

/-- From the second part on nothing is said. -/
theorem returns_placeFrom_later (total index : Nat) (items : List OutgoingMedia) :
    Returns (placeFrom total (index + 1) items) s fun t _ => t = s := by
  induction items generalizing index with
  | nil => exact returns_pure rfl
  | cons item rest ih =>
      refine Returns.bind (Returns.tryCatch (returns_place _ _) fun t e => ?_) fun t message h => ?_
      · cases e with
        | _ => exact returns_throw
      · obtain rfl : t = s := by simpa [uncaptioned] using h
        exact (ih (index + 1)).bind fun t messages h => returns_pure h

theorem returns_oneAtATime {item : OutgoingMedia} (rest : List OutgoingMedia) :
    Returns (oneAtATime (item :: rest)) s fun t _ => t = s.say item.caption.toList := by
  refine Returns.bind (P := fun t _ => t = s.say item.caption.toList) ?_ fun t ids h => ?_
  · refine Returns.bind (Returns.tryCatch (returns_place _ _) fun t e => ?_) fun t message h => ?_
    · cases e with
      | _ => exact returns_throw
    · exact (returns_placeFrom_later _ 0 rest).bind fun t' messages h' => returns_pure (h'.trans h)
  · subst h
    exact (returns_checkAlbumReceipt ids _).bind fun t _ h => returns_pure h

end MtprotoOwnerSender

namespace Voice

variable (v : Voice) {s : Heard}

theorem returns_sendText (text : String) (replyTo : Option Int) (entities : Entities)
    (buttons : Buttons) :
    Returns (v.sender.sendText text replyTo entities buttons) s fun t _ => t = s.say [text] := by
  cases v with
  | bot botId => exact RegistryMediaSender.returns_sendText botId text replyTo entities buttons
  | owner => exact MtprotoOwnerSender.returns_sendText text replyTo entities buttons

theorem returns_sendFile {form : Form} (hform : form ≠ .sticker) {m : OutgoingMedia}
    (hm : m.caption ≠ some "") (replyTo : Option Int) :
    Returns (v.sender.sendFile form m replyTo) s fun t _ => t = s.say m.caption.toList := by
  cases v with
  | bot botId => exact RegistryMediaSender.returns_sendFile botId hform hm replyTo
  | owner => exact MtprotoOwnerSender.returns_place _ m

theorem returns_sendSticker (m : OutgoingMedia) (replyTo : Option Int) :
    Returns (v.sender.sendFile .sticker m replyTo) s fun t _ => v.StickerSent m.caption s t := by
  cases v with
  | bot botId => exact RegistryMediaSender.returns_sendSticker botId m replyTo
  | owner => exact MtprotoOwnerSender.returns_place _ m

/-- A group of which the first part alone has a caption. -/
theorem returns_sendAlbum {item : OutgoingMedia} {rest : List OutgoingMedia}
    (hrest : ∀ m ∈ rest, m.caption = none) (replyTo : Option Int) :
    Returns (v.sender.sendAlbum (item :: rest) replyTo) s fun t _ =>
      t = s.say item.caption.toList := by
  cases v with
  | bot botId =>
      have hnone : rest.flatMap (·.caption.toList) = [] :=
        List.flatMap_eq_nil_iff.mpr fun m hm => by rw [hrest m hm]; rfl
      have hsent := RegistryMediaSender.returns_sendAlbum botId (s := s) (item :: rest) replyTo
      rwa [List.flatMap_cons, hnone, List.append_nil] at hsent
  | owner =>
      change Returns (MtprotoOwnerSender.sendAlbum _ replyTo) _ _
      unfold MtprotoOwnerSender.sendAlbum
      split
      · exact MtprotoOwnerSender.returns_grouped _
      · exact MtprotoOwnerSender.returns_oneAtATime rest

theorem returns_sendContact (phone firstName : String) (lastName vcard : Option String)
    (replyTo : Option Int) :
    Returns (v.sender.sendContact phone firstName lastName vcard replyTo) s fun t _ =>
      t = s.say (v.contactLines firstName lastName) := by
  cases v with
  | bot botId =>
      exact (RegistryMediaSender.returns_sendContact botId phone firstName lastName vcard
        replyTo).mono fun t _ h => h.trans (Heard.say_nil s).symm
  | owner => exact MtprotoOwnerSender.returns_sendText _ replyTo none none

theorem returns_sendPhotoUrl (url caption : String) (replyTo : Option Int) (buttons : Buttons) :
    Returns (v.sender.sendPhotoUrl url caption replyTo buttons) s fun t shown =>
      t = s.say (if shown.isSome then [caption] else []) := by
  cases v with
  | bot botId => exact RegistryMediaSender.returns_sendPhotoUrl botId url caption replyTo buttons
  | owner => exact returns_pure (Heard.say_nil s).symm

end Voice

/-! ## a delivery -/

/-- The same for a delivery, whether it has announced itself or not. -/
def Returned {α : Type} (x : Delivering α) (s : Heard) (Q : Heard → α → Prop) : Prop :=
  ∀ announced, Returns (x.run announced) s fun t p => Q t p.1

section

variable {α β : Type} {s : Heard} {x : Delivering α}

theorem returned_pure {a : α} {Q : Heard → α → Prop} (h : Q s a) : Returned (pure a) s Q :=
  fun _ => returns_pure h

theorem returned_raise {e : SendError} {Q : Heard → α → Prop} : Returned (raise e) s Q :=
  fun _ => returns_throw

theorem Returned.bind {f : α → Delivering β} {P : Heard → α → Prop} {Q : Heard → β → Prop}
    (hx : Returned x s P) (hf : ∀ t a, P t a → Returned (f a) t Q) : Returned (x >>= f) s Q :=
  fun announced => (hx announced).bind fun t p h => hf t p.1 h p.2

theorem Returned.mono {P Q : Heard → α → Prop} (h : Returned x s P)
    (himp : ∀ t a, P t a → Q t a) : Returned x s Q :=
  fun announced => (h announced).mono fun t p => himp t p.1

theorem returned_lift {y : SendScript α} {Q : Heard → α → Prop} (h : Returns y s Q) :
    Returned (liftM y : Delivering α) s Q :=
  fun _ => h.bind fun _ _ h => returns_pure h

theorem returned_announcing {y : SendScript α} {Q : Heard → α → Prop} (h : Returns y s Q) :
    Returned (announcing y) s Q := by
  intro announced
  cases announced with
  | true => exact h.bind fun _ _ h => returns_pure h
  | false =>
      refine (returns_ask .sending).bind fun t r ht => ?_
      obtain rfl : t = s := ht
      rcases r with f | ⟨⟩
      · exact returns_throw
      · exact h.bind fun _ _ h => returns_pure h

theorem Returned.runs {Q : Heard → α → Prop} (h : Returned x s Q)
    {tr : List (Asked Call.Outcome)} {p : α × Bool} (hr : Runs (x.run false) tr (.ok p)) :
    Q (Heard.reader.after s tr) p.1 :=
  (h false).runs hr

end

attribute [irreducible] Returned

/-! ## what is said -/

/-- What is said of an attachment that is no file. -/
def lineOf (v : Voice) (isOutgoing : Bool) (caption : Option String) (a : MaxAttachment) :
    List String :=
  match a.kind with
  | .link => [linkText a caption]
  | .service => [serviceText a caption]
  | .call => [callText a isOutgoing]
  | .contact =>
      if (a.contactPhone.filter (· ≠ "")).isSome then
        v.contactLines (contactFirstLast a).1 (contactFirstLast a).2
      else [contactCardText a caption]
  | .unknown => [above caption unknownNotice]
  | _ => []

/-- What is said of a file that did not come. -/
def noticeOf (a : MaxAttachment) : Fetched → List String
  | .ok _ => []
  | .error (.tooLarge limit) => [tooLargeNotice a.kind limit]
  | .error _ => [unavailableNotice a.kind]

/-- What is said of attachments that go out one by one, without a caption. -/
def lines (v : Voice) (isOutgoing : Bool) : List MaxAttachment → List Fetched → List String
  | [], _ => []
  | a :: rest, fetched =>
      if a.kind.isFile then
        match fetched with
        | r :: fetched => noticeOf a r ++ lines v isOutgoing rest fetched
        | [] => lines v isOutgoing rest []
      else lineOf v isOutgoing none a ++ lines v isOutgoing rest fetched

/-- The parts of an album that are too large. -/
def albumNotices (limitBytes : Nat) (album : List MaxAttachment) (fetched : List Fetched) :
    List String :=
  (album.zip fetched).flatMap fun x =>
    if tooLarge x.2 then [tooLargeNotice x.1.kind limitBytes] else []

/-- The message of this attachment, the first, has room for a caption. -/
def carriesCaption (a : MaxAttachment) (fetched : List Fetched) : Bool :=
  match a.kind with
  | .link | .service | .unknown => true
  | .call => false
  | .contact => !(a.contactPhone.filter (· ≠ "")).isSome
  | _ => fetched.head?.any (·.toBool)

/-- A sticker goes as a picture, which takes a caption of its own. -/
def Voice.flattens (v : Voice) (stickers : List Bool) : Bool :=
  match v with
  | .bot _ => stickers.head? ≠ some true
  | .owner => true

/-- How often the caption rides along. -/
def rides (v : Voice) (message : IncomingMaxMessage) (caption : String) (s : Heard) : Nat :=
  let album := albumAttachments message
  if !(splitCaption caption).2.isEmpty then 1
  else if album.isEmpty then
    match message.attachments with
    | [] => 0
    | a :: _ =>
        if carriesCaption a s.fetched then
          if a.kind = .sticker && v.flattens s.stickers then 2 else 1
        else 0
  else if (s.fetched.take album.length).any (·.toBool) then 1 else 0

/-- What the bridge says of its own, next to the caption. -/
def ownLines (v : Voice) (limitBytes : Nat) (message : IncomingMaxMessage) (caption : String)
    (fetched : List Fetched) : List String :=
  let album := albumAttachments message
  let later := fetched.drop album.length
  albumNotices limitBytes album fetched ++
    match singleAttachments message with
    | [] => []
    | a :: rest =>
        if album.isEmpty && (splitCaption caption).2.isEmpty && carriesCaption a later then
          lines v message.isOutgoing rest (if a.kind.isFile then later.tail else later)
        else lines v message.isOutgoing (a :: rest) later

/-- What a part of a delivery adds. -/
structure Heard.Then (s t : Heard) (fetched : List Fetched) (texts : List String) : Prop where
  fetched : t.fetched = s.fetched ++ fetched
  said : t.said = s.said ++ texts
  stickers : s.stickers <+: t.stickers

namespace Heard.Then

variable {s t u : Heard} {fs fs' : List Fetched} {texts texts' : List String}

theorem trans (h : s.Then t fs texts) (h' : t.Then u fs' texts') :
    s.Then u (fs ++ fs') (texts ++ texts') where
  fetched := by rw [h'.fetched, h.fetched, List.append_assoc]
  said := by rw [h'.said, h.said, List.append_assoc]
  stickers := h.stickers.trans h'.stickers

theorem refl (s : Heard) : s.Then s [] [] := ⟨by simp, by simp, List.prefix_rfl⟩

theorem say (s : Heard) (texts : List String) : s.Then (s.say texts) [] texts :=
  ⟨by simp [Heard.say], rfl, List.prefix_rfl⟩

theorem got (s : Heard) (r : Fetched) : s.Then (s.got r) [r] [] :=
  ⟨rfl, by simp [Heard.got], List.prefix_rfl⟩

end Heard.Then

theorem Voice.StickerSent.then {v : Voice} {s t : Heard} (h : v.StickerSent none s t) :
    s.Then t [] [] := by
  cases v with
  | bot botId =>
      obtain ⟨taken, rfl⟩ := h
      refine ⟨by simp [Heard.say, Heard.offered], by simp [Heard.say, Heard.offered], ?_⟩
      exact List.prefix_append _ _
  | owner =>
      obtain rfl : t = s := by simpa [Voice.StickerSent] using h
      exact .refl t

/-- The first part alone has the caption, and it is no sticker. -/
def Headed (caption : Option String) : List OutgoingMedia → Prop
  | [] => True
  | item :: rest => item.caption = caption ∧ item.kind ≠ .sticker ∧ ∀ m ∈ rest, m.caption = none

theorem Headed.concat {caption : Option String} {items : List OutgoingMedia}
    (h : Headed caption items) {m : OutgoingMedia} (hkind : m.kind ≠ .sticker)
    (hm : m.caption = if items.isEmpty then caption else none) : Headed caption (items ++ [m]) := by
  cases items with
  | nil => exact ⟨by simpa using hm, hkind, by simp⟩
  | cons item rest =>
      refine ⟨h.1, h.2.1, fun m' hmem => ?_⟩
      rcases List.mem_append.mp hmem with hold | hnew
      · exact h.2.2 m' hold
      · rw [List.mem_singleton.mp hnew]
        simpa using hm

theorem returns_cover (a : MaxAttachment) (file : LocalFile) {s : Heard} :
    Returns (cover a file) s fun t _ => t = s := by
  unfold cover
  split
  case h_1 | h_2 =>
    refine (returns_ask _).bind fun t r h => ?_
    cases r with
    | ok thumbnail => exact returns_pure h
    | error f => exact returns_throw
  case h_3 => exact returns_pure rfl

theorem formOf_ne_sticker {kind : AttachmentKind} (h : kind ≠ .sticker) :
    formOf kind ≠ .sticker := by
  cases kind <;> simp_all [formOf]

namespace MaxMediaDelivery

theorem returns_noteStickerOrigin (d : MaxMediaDelivery) (a : MaxAttachment) (file : LocalFile)
    {s : Heard} : Returns (d.noteStickerOrigin a file) s fun t _ => t = s := by
  unfold noteStickerOrigin
  split
  · exact returns_pure rfl
  · refine (returns_ask _).bind fun t r h => ?_
    rcases r with (_ | ⟨name, text⟩) | ⟨⟩
    · exact returns_throw
    · exact returns_pure h
    · exact returns_pure h

variable {d : MaxMediaDelivery} {v : Voice} (hd : d.sender = v.sender)
include hd

theorem returned_text (text : String) (replyTo : Option Int) (entities : Entities)
    (buttons : Buttons) {s : Heard} :
    Returned (announcing (d.sender.sendText text replyTo entities buttons)) s
      fun t _ => t = s.say [text] := by
  rw [hd]
  exact returned_announcing (v.returns_sendText text replyTo entities buttons)

/-- What is no sticker goes out with its caption. -/
theorem returned_dispatch {m : OutgoingMedia} (hkind : m.kind ≠ .sticker)
    (hm : m.caption ≠ some "") (replyTo : Option Int) {s : Heard} :
    Returned (d.dispatch m replyTo) s fun t _ => t = s.say m.caption.toList := by
  unfold dispatch
  rw [hd]
  refine (returned_announcing (v.returns_sendFile (formOf_ne_sticker hkind) hm replyTo)).bind
    fun t sent h => ?_
  rw [if_neg hkind]
  exact returned_pure h

/-- A sticker is followed by its caption. -/
theorem returned_dispatch_sticker {m : OutgoingMedia} (hkind : m.kind = .sticker)
    (hm : m.caption ≠ some "") (replyTo : Option Int) {s : Heard} :
    Returned (d.dispatch m replyTo) s fun t _ =>
      ∃ u, v.StickerSent m.caption s u ∧ t = u.say m.caption.toList := by
  unfold dispatch
  rw [hkind, if_pos rfl]
  refine Returned.bind (P := fun t _ => v.StickerSent m.caption s t) ?_ fun u sent h => ?_
  · rw [hd]
    exact returned_announcing (v.returns_sendSticker m replyTo)
  · cases hcaption : m.caption with
    | none => exact returned_pure ⟨u, hcaption ▸ h, (Heard.say_nil u).symm⟩
    | some caption =>
        have hne : caption ≠ "" := fun h => hm (by rw [hcaption, h])
        simp only [Option.filter_some, hne, ne_eq, not_false_eq_true, decide_true, if_true]
        refine (returned_text hd caption _ _ none).bind fun t _ ht => ?_
        exact returned_pure ⟨u, hcaption ▸ h, ht⟩

/-! ### an album -/

/-- The loop over the parts; what came is in the list. -/
theorem returned_gather {caption : Option String} (entities : Entities) (replyTo : Option Int)
    {rest : List MaxAttachment} (hrest : ∀ a ∈ rest, a.kind.isAlbum = true)
    {items : List OutgoingMedia} (hitems : Headed caption items) {s : Heard} :
    Returned (d.gather caption entities replyTo rest items) s fun t items' =>
      Headed caption items' ∧ ∃ fs, fs.length = rest.length ∧
        s.Then t fs (albumNotices d.limitBytes rest fs) ∧
        (items' = [] ↔ items = [] ∧ fs.any (·.toBool) = false) := by
  induction rest generalizing items s with
  | nil => exact returned_pure ⟨hitems, [], rfl, .refl s, by simp⟩
  | cons a rest ih =>
      have hrest' : ∀ a ∈ rest, a.kind.isAlbum = true := fun a ha =>
        hrest a (List.mem_cons_of_mem _ ha)
      refine (returned_lift (returns_ask (.fetch a))).bind fun t r h => ?_
      obtain rfl : t = s.got r := h
      rcases r with (limit | ⟨code, text⟩ | f) | file
      · refine (returned_text hd _ replyTo none none).bind fun t _ h => ?_
        subst h
        refine (ih hrest' hitems).mono fun t items' h => ?_
        obtain ⟨hheaded, fs, hlen, hthen, hnil⟩ := h
        refine ⟨hheaded, .error (.tooLarge limit) :: fs, by simp [hlen], ?_,
          hnil.trans (by simp [Except.toBool])⟩
        exact ((Heard.Then.got s _).trans (.say _ _)).trans hthen
      · exact returned_raise
      · exact returned_raise
      · refine (returned_lift (returns_cover a file)).bind fun t thumbnail h => ?_
        subst h
        have hkind : a.kind ≠ .sticker := fun h => by
          have := hrest a List.mem_cons_self
          simp [h, AttachmentKind.isAlbum] at this
        refine (ih hrest' (hitems.concat hkind rfl)).mono fun t items' h => ?_
        obtain ⟨hheaded, fs, hlen, hthen, hnil⟩ := h
        refine ⟨hheaded, .ok file :: fs, by simp [hlen], ?_, hnil.trans (by simp [Except.toBool])⟩
        exact (Heard.Then.got s (.ok file)).trans hthen

/-- An album carries the caption on the first part that came. -/
theorem returned_sendAlbum {caption : Option String} (hcaption : caption ≠ some "")
    (entities : Entities) (replyTo : Option Int) {attachments : List MaxAttachment}
    (hkinds : ∀ a ∈ attachments, a.kind.isAlbum = true) {s : Heard} :
    Returned (d.sendAlbum attachments caption entities replyTo) s fun t _ =>
      ∃ fs, fs.length = attachments.length ∧
        s.Then t fs (albumNotices d.limitBytes attachments fs ++
          if fs.any (·.toBool) then caption.toList else []) := by
  have hnone : Headed caption ([] : List OutgoingMedia) := trivial
  refine (returned_gather hd entities replyTo hkinds hnone).bind fun t items h => ?_
  obtain ⟨hheaded, fs, hlen, hthen, hnil⟩ := h
  have hsaid : ∀ u : Heard, items ≠ [] → u = t.say caption.toList →
      s.Then u fs (albumNotices d.limitBytes attachments fs ++
        if fs.any (·.toBool) then caption.toList else []) := by
    rintro u hne rfl
    have hcame : fs.any (·.toBool) = true := by simpa using fun h => hne (hnil.mpr ⟨rfl, h⟩)
    rw [if_pos hcame]
    simpa using hthen.trans (.say t _)
  rcases items with _ | ⟨item, _ | ⟨item', items⟩⟩
  · refine returned_pure ⟨fs, hlen, ?_⟩
    have hnone : fs.any (·.toBool) = false := (hnil.mp rfl).2
    simpa [hnone] using hthen
  · obtain ⟨hc, hkind, _⟩ := hheaded
    refine (returned_dispatch hd hkind (hc ▸ hcaption) replyTo).bind fun u sent h => ?_
    exact returned_pure ⟨fs, hlen, hsaid u (by simp) (hc ▸ h)⟩
  · obtain ⟨hc, _, hnone⟩ := hheaded
    refine Returned.bind (P := fun u _ => u = t.say caption.toList) ?_ fun u receipt h => ?_
    · rw [hd]
      exact returned_announcing (hc ▸ v.returns_sendAlbum hnone replyTo)
    · split
      · exact returned_raise
      · exact returned_pure ⟨fs, hlen, hsaid u (by simp) h⟩

/-! ### one by one -/

theorem returned_sendContact (a : MaxAttachment) (ha : a.kind = .contact) (isOutgoing : Bool)
    (caption : Option String) (entities : Entities) (replyTo : Option Int) {s : Heard} :
    Returned (d.sendContact a caption entities replyTo) s fun t _ =>
      t = s.say (lineOf v isOutgoing caption a) := by
  unfold sendContact lineOf
  rw [ha]
  cases a.contactPhone.filter (· ≠ "") with
  | some phone =>
      dsimp only [Option.isSome_some, if_true]
      rw [hd]
      exact returned_announcing (v.returns_sendContact _ _ _ _ _)
  | none =>
      dsimp only [Option.isSome_none]
      rw [if_neg nofun]
      split
      · refine Returned.bind (P := fun t (shown : Option Int) => t = s.say
          (if shown.isSome then [contactCardText a caption] else [])) ?_ fun t shown h => ?_
        · rw [hd]
          exact returned_announcing (v.returns_sendPhotoUrl _ _ _ _)
        · cases shown with
          | some message => exact returned_pure h
          | none =>
              obtain rfl : t = s := h.trans (Heard.say_nil s)
              exact returned_text hd _ _ _ _
      · exact returned_text hd _ _ _ _

theorem returned_sendOne_line {a : MaxAttachment} (ha : a.kind.isFile = false) (isOutgoing : Bool)
    (caption : Option String) (entities : Entities) (replyTo : Option Int) {s : Heard} :
    Returned (d.sendOne isOutgoing a caption entities replyTo) s fun t _ =>
      t = s.say (lineOf v isOutgoing caption a) := by
  unfold sendOne
  cases hkind : a.kind with
  | link | service | call | unknown =>
      rw [show lineOf v isOutgoing caption a = _ by rw [lineOf, hkind]]
      exact returned_text hd _ _ _ _
  | contact => exact returned_sendContact hd a hkind isOutgoing caption entities replyTo
  | _ => simp [hkind, AttachmentKind.isFile] at ha

/-- What is behind a file: with its caption, or a notice. -/
theorem returned_sendFile {a : MaxAttachment} {caption : Option String}
    (hcaption : caption ≠ some "") (entities : Entities) (replyTo : Option Int) {s : Heard} :
    Returned (d.sendFile a caption entities replyTo) s fun t _ =>
      (∃ r, r.toBool = false ∧ t = (s.got r).say (noticeOf a r)) ∨
        ∃ file, (a.kind = .sticker ∧
            ∃ u, v.StickerSent caption (s.got (.ok file)) u ∧ t = u.say caption.toList) ∨
          a.kind ≠ .sticker ∧ t = (s.got (.ok file)).say caption.toList := by
  refine (returned_lift (returns_ask (.fetch a))).bind fun t r h => ?_
  obtain rfl : t = s.got r := h
  rcases r with (limit | ⟨code, text⟩ | f) | file
  · exact (returned_text hd _ _ _ _).mono fun t _ h => .inl ⟨.error (.tooLarge limit), rfl, h⟩
  · dsimp only
    split
    · exact (returned_text hd _ _ _ _).mono fun t _ h =>
        .inl ⟨.error (.unavailable code text), rfl, h⟩
    · exact returned_raise
  · exact returned_raise
  · refine (returned_lift (returns_cover a file)).bind fun t thumbnail h => ?_
    subst h
    by_cases hkind : a.kind = .sticker
    · refine (returned_dispatch_sticker hd (m := describe a file caption entities thumbnail) hkind
        hcaption replyTo).bind fun t sent h => ?_
      refine (returned_lift (returns_noteStickerOrigin d a file)).bind fun t' _ h' => ?_
      subst h'
      exact returned_pure (.inr ⟨file, .inl ⟨hkind, h⟩⟩)
    · refine (returned_dispatch hd (m := describe a file caption entities thumbnail) hkind
        hcaption replyTo).bind fun t sent h => ?_
      refine (returned_lift (returns_noteStickerOrigin d a file)).bind fun t' _ h' => ?_
      subst h'
      exact returned_pure (.inr ⟨file, .inr ⟨hkind, h⟩⟩)

/-- Without a caption nothing but lines and notices is said. -/
theorem returned_sendOne_plain (a : MaxAttachment) (isOutgoing : Bool) (entities : Entities)
    (replyTo : Option Int) {s : Heard} :
    Returned (d.sendOne isOutgoing a none entities replyTo) s fun t _ => ∃ fs,
      s.Then t fs (lines v isOutgoing [a] fs) ∧
        ∀ rest fs', lines v isOutgoing (a :: rest) (fs ++ fs') =
          lines v isOutgoing [a] fs ++ lines v isOutgoing rest fs' := by
  cases ha : a.kind.isFile with
  | false =>
      refine (returned_sendOne_line hd ha isOutgoing none entities replyTo).mono fun t _ h => ?_
      subst h
      refine ⟨[], ?_, fun rest fs' => by simp [lines, ha]⟩
      simpa [lines, ha] using Heard.Then.say s (lineOf v isOutgoing none a)
  | true =>
      rw [d.sendOne_eq_sendFile ha]
      have hnone : (none : Option String) ≠ some "" := by simp
      refine (returned_sendFile hd hnone entities replyTo).mono fun t _ h => ?_
      have hsplit : ∀ r rest fs', lines v isOutgoing (a :: rest) ([r] ++ fs') =
          lines v isOutgoing [a] [r] ++ lines v isOutgoing rest fs' := fun r rest fs' => by
        simp [lines, ha]
      rcases h with ⟨r, _, rfl⟩ | ⟨file, ⟨_, u, hu, rfl⟩ | ⟨_, rfl⟩⟩
      · refine ⟨[r], ?_, hsplit r⟩
        simpa [lines, ha] using (Heard.Then.got s r).trans (.say _ (noticeOf a r))
      · refine ⟨[.ok file], ?_, hsplit _⟩
        simpa [lines, ha, noticeOf] using (Heard.Then.got s (.ok file)).trans hu.then
      · refine ⟨[.ok file], ?_, hsplit _⟩
        simpa [lines, ha, noticeOf] using Heard.Then.got s (.ok file)

theorem returned_sendSingles_plain (isOutgoing : Bool) (replyTo : Option Int)
    (rest : List MaxAttachment) (entities : Entities) (first : Option Int) {s : Heard} :
    Returned (d.sendSingles isOutgoing replyTo rest none entities first) s fun t _ => ∃ fs,
      s.Then t fs (lines v isOutgoing rest fs) := by
  induction rest generalizing entities first s with
  | nil => exact returned_pure ⟨[], .refl s⟩
  | cons a rest ih =>
      refine (returned_sendOne_plain hd a isOutgoing entities _).bind fun t sent h => ?_
      obtain ⟨fs, hthen, hsplit⟩ := h
      refine (ih none _).mono fun u _ h => ?_
      obtain ⟨fs', hthen'⟩ := h
      exact ⟨fs ++ fs', by rw [hsplit]; exact hthen.trans hthen'⟩

theorem returned_sendTail (tail : String) (replyTo first : Option Int) {s : Heard} :
    Returned (d.sendTail tail replyTo first) s fun t _ =>
      s.Then t [] (if tail.isEmpty then [] else [tail]) := by
  unfold sendTail
  split
  case isTrue htail => exact returned_pure (.refl s)
  case isFalse htail =>
    refine (returned_text hd tail _ _ _).bind fun t sent h => ?_
    subst h
    exact returned_pure (.say s [tail])

end MaxMediaDelivery

/-! ## the whole delivery -/

theorem strip_strip (s : String) : strip (strip s) = strip s := by
  simp only [strip, String.toList_ofList]
  exact congrArg String.ofList (Trim.trim_trim isSpace s.toList)

theorem reads_self (words : String) : reads words words = true := by simp [reads]

theorem reads_above {words : String} (hwords : strip words = words) (hne : words ≠ "")
    (line : String) : reads words (above (some words) line) = true := by
  have hempty : words.isEmpty = false := by simpa using hne
  simp [reads, above, hwords, hempty, toString]

theorem reads_linkText {words : String} (hwords : strip words = words) (hne : words ≠ "")
    (a : MaxAttachment) : reads words (linkText a (some words)) = true := by
  have hempty : words.isEmpty = false := by simpa using hne
  unfold linkText
  simp only [Option.getD_some, hwords, hempty]
  split
  · exact reads_self words
  · rw [if_neg nofun]
    split
    · exact reads_self words
    · simp [reads, toString]

theorem reads_serviceText {words : String} (hwords : strip words = words) (hne : words ≠ "")
    (a : MaxAttachment) : reads words (serviceText a (some words)) = true := by
  unfold serviceText
  exact reads_above hwords hne _

/-- A caption is short enough to ride along, or it follows. -/
theorem splitCaption_of_ne {caption : String} (h : strip caption ≠ "") :
    splitCaption caption = (some (strip caption), "") ∨
      splitCaption caption = (none, strip caption) := by
  have hempty : (strip caption).isEmpty = false := by simpa using h
  unfold splitCaption
  simp only [hempty]
  rw [if_neg nofun]
  split
  · exact .inl rfl
  · exact .inr rfl

theorem albumNotices_append {limitBytes : Nat} {album : List MaxAttachment} {fs : List Fetched}
    (h : fs.length = album.length) (fs' : List Fetched) :
    albumNotices limitBytes album (fs ++ fs') = albumNotices limitBytes album fs := by
  have hzip : (album ++ []).zip (fs ++ fs') = album.zip fs ++ List.zip [] fs' :=
    List.zip_append h.symm
  rw [List.append_nil, List.zip_nil_left, List.append_nil] at hzip
  rw [albumNotices, hzip, albumNotices]

/-- Every word of the caption is counted: it rides along so often, and the bridge's
own lines may say the same. -/
def Counted (v : Voice) (limitBytes : Nat) (message : IncomingMaxMessage) (caption : String)
    (t : Heard) : Prop :=
  t.said.countP (reads (strip caption)) = rides v message caption t +
    (ownLines v limitBytes message caption t.fetched).countP (reads (strip caption))

section

variable {v : Voice} {limitBytes : Nat} {message : IncomingMaxMessage} {caption : String}
  {t : Heard} {fs fs' : List Fetched}

/-- Where nothing before the last text had the caption. -/
theorem counted_of_plain (hfs : fs.length = (albumAttachments message).length)
    (extra tail : List String) {n : Nat} (hrides : rides v message caption t = n)
    (hcond : ((albumAttachments message).isEmpty && (splitCaption caption).2.isEmpty) = false)
    (hextra : (extra ++ tail).countP (reads (strip caption)) = n)
    (hfetched : t.fetched = fs ++ fs')
    (hsaid : t.said = albumNotices limitBytes (albumAttachments message) fs ++ extra ++
      lines v message.isOutgoing (singleAttachments message) fs' ++ tail) :
    Counted v limitBytes message caption t := by
  have hown : ownLines v limitBytes message caption t.fetched =
      albumNotices limitBytes (albumAttachments message) fs ++
        lines v message.isOutgoing (singleAttachments message) fs' := by
    unfold ownLines
    dsimp only
    rw [hfetched, albumNotices_append hfs, List.drop_left' hfs, hcond]
    cases singleAttachments message with
    | nil => simp [lines]
    | cons a rest => simp
  rw [Counted, hrides, hown, hsaid]
  simp only [List.countP_append] at hextra ⊢
  omega

variable {a : MaxAttachment} {rest : List MaxAttachment}

/-- Without an album the caption is on the message of the first attachment. -/
theorem counted_of_carried (halbum : albumAttachments message = [])
    (hlist : message.attachments = a :: rest) (hsplit : (splitCaption caption).2 = "")
    (hfetched : t.fetched = fs ++ fs') (hcarries : carriesCaption a (fs ++ fs') = true)
    (hlater : (if a.kind.isFile then (fs ++ fs').tail else fs ++ fs') = fs') (texts : List String)
    (htexts : texts.countP (reads (strip caption)) =
      if a.kind = .sticker && v.flattens t.stickers then 2 else 1)
    (hsaid : t.said = texts ++ lines v message.isOutgoing rest fs') :
    Counted v limitBytes message caption t := by
  have hsingles : singleAttachments message = a :: rest := by
    simp [singleAttachments, halbum, hlist]
  have hrides : rides v message caption t =
      if a.kind = .sticker && v.flattens t.stickers then 2 else 1 := by
    simp only [rides, hsplit, halbum, hlist, hfetched, hcarries]
    rfl
  have hown : ownLines v limitBytes message caption t.fetched =
      lines v message.isOutgoing rest fs' := by
    unfold ownLines
    simp only [halbum, hsingles, hsplit, hfetched, List.length_nil, List.drop_zero, hcarries, hlater]
    rfl
  rw [Counted, hrides, hown, hsaid, List.countP_append, htexts]

/-- Or it has no place there. -/
theorem counted_of_dropped (halbum : albumAttachments message = [])
    (hlist : message.attachments = a :: rest) (hsplit : (splitCaption caption).2 = "")
    (hfetched : t.fetched = fs ++ fs') (hcarries : carriesCaption a (fs ++ fs') = false)
    (hsaid : t.said = lines v message.isOutgoing (a :: rest) (fs ++ fs')) :
    Counted v limitBytes message caption t := by
  have hsingles : singleAttachments message = a :: rest := by
    simp [singleAttachments, halbum, hlist]
  have hrides : rides v message caption t = 0 := by
    simp only [rides, hsplit, halbum, hlist, hfetched, hcarries]
    rfl
  have hown : ownLines v limitBytes message caption t.fetched =
      lines v message.isOutgoing (a :: rest) (fs ++ fs') := by
    unfold ownLines
    simp only [halbum, hsingles, hsplit, hfetched, List.length_nil, List.drop_zero, hcarries]
    rfl
  rw [Counted, hrides, hown, hsaid, Nat.zero_add]

end

/-- A line about an attachment begins with the caption, where it has room for it. -/
theorem lineOf_some {caption : String} (hne : strip caption ≠ "") {v : Voice} {isOutgoing : Bool}
    {a : MaxAttachment} (ha : a.kind.isFile = false) (fetched : List Fetched) :
    if carriesCaption a fetched then
      ∃ text, lineOf v isOutgoing (some (strip caption)) a = [text] ∧
        reads (strip caption) text = true
    else lineOf v isOutgoing (some (strip caption)) a = lineOf v isOutgoing none a := by
  have hwords := strip_strip caption
  unfold carriesCaption lineOf
  cases hkind : a.kind with
  | link =>
      dsimp only
      rw [if_pos rfl]
      exact ⟨_, rfl, reads_linkText hwords hne a⟩
  | service =>
      dsimp only
      rw [if_pos rfl]
      exact ⟨_, rfl, reads_serviceText hwords hne a⟩
  | unknown =>
      dsimp only
      rw [if_pos rfl]
      exact ⟨_, rfl, reads_above hwords hne unknownNotice⟩
  | call =>
      dsimp only
      rw [if_neg (by simp), callText]
  | contact =>
      dsimp only
      cases (a.contactPhone.filter (· ≠ "")).isSome with
      | true => rw [if_neg (by simp), if_pos rfl, if_pos rfl]
      | false =>
          rw [if_pos (by simp), if_neg (by simp)]
          exact ⟨_, rfl, reads_above hwords hne (contactCard (strip (a.contactName.getD "")))⟩
  | _ => simp [hkind, AttachmentKind.isFile] at ha

namespace MaxMediaDelivery

variable {d : MaxMediaDelivery} {v : Voice} (hd : d.sender = v.sender)
  {message : IncomingMaxMessage} {caption : String}
include hd

/-- A caption that is too long follows the attachments. -/
theorem counted_tail (hne : strip caption ≠ "")
    (hsplit : splitCaption caption = (none, strip caption)) (entities : Entities)
    (replyTo : Option Int) :
    Returned (d.deliverReceipt message caption entities replyTo) {} fun t _ =>
      Counted v d.limitBytes message caption t := by
  have hempty : (strip caption).isEmpty = false := by simpa using hne
  unfold deliverReceipt
  simp only [hsplit]
  refine Returned.bind (P := fun t _ => ∃ fs, fs.length = (albumAttachments message).length ∧
    Heard.Then {} t fs (albumNotices d.limitBytes (albumAttachments message) fs)) ?_
    fun t parts h => ?_
  · split
    case isTrue halbum =>
      have hnil : albumAttachments message = [] := by simpa using halbum
      exact returned_pure ⟨[], by simp [hnil], by simpa [hnil, albumNotices] using .refl {}⟩
    case isFalse halbum =>
      have hnone : (none : Option String) ≠ some "" := by simp
      refine (returned_sendAlbum hd hnone entities replyTo fun a => isAlbum_of_mem).mono
        fun t _ h => ?_
      simpa using h
  · obtain ⟨fs, hlen, hthen⟩ := h
    simp only [ite_self]
    refine (returned_sendSingles_plain hd message.isOutgoing replyTo _ _ _).bind fun u first h => ?_
    obtain ⟨fs', hthen'⟩ := h
    refine (returned_sendTail hd (strip caption) replyTo first).bind fun w _ h => returned_pure ?_
    rw [hempty] at h
    have hall := (hthen.trans hthen').trans h
    have hfetched : w.fetched = fs ++ fs' := by simpa using hall.fetched
    refine counted_of_plain hlen [] [strip caption] (n := 1) (by simp [rides, hsplit, hempty])
      (by simp [hsplit, hempty]) ?_ hfetched ?_
    · simp [reads_self]
    · simpa using hall.said

/-- A caption that rides along with an album. -/
theorem counted_album (hne : strip caption ≠ "")
    (hsplit : splitCaption caption = (some (strip caption), ""))
    (halbum : albumAttachments message ≠ []) (entities : Entities) (replyTo : Option Int) :
    Returned (d.deliverReceipt message caption entities replyTo) {} fun t _ =>
      Counted v d.limitBytes message caption t := by
  unfold deliverReceipt
  simp only [hsplit]
  rw [if_neg (by simpa using halbum)]
  have hsome : some (strip caption) ≠ some "" := by simpa using hne
  refine (returned_sendAlbum hd hsome entities replyTo fun a => isAlbum_of_mem).bind
    fun t parts h => ?_
  obtain ⟨fs, hlen, hthen⟩ := h
  have hused : (!(albumAttachments message).isEmpty) = true := by simpa using halbum
  simp only [hused, if_true]
  refine (returned_sendSingles_plain hd message.isOutgoing replyTo _ _ _).bind fun u first h => ?_
  obtain ⟨fs', hthen'⟩ := h
  refine (returned_sendTail hd "" replyTo first).bind fun w _ h => returned_pure ?_
  have hall := (hthen.trans hthen').trans h
  have hfetched : w.fetched = fs ++ fs' := by simpa using hall.fetched
  refine counted_of_plain hlen (if fs.any (·.toBool) then [strip caption] else []) []
    (n := if fs.any (·.toBool) then 1 else 0) ?_ (by simp [halbum]) ?_ hfetched ?_
  · simp [rides, hsplit, halbum, hfetched, List.take_left' hlen]
  · split <;> simp [reads_self]
  · simpa using hall.said

/-- A caption that rides along with the first attachment. -/
theorem counted_first (hne : strip caption ≠ "")
    (hsplit : splitCaption caption = (some (strip caption), ""))
    (halbum : albumAttachments message = []) {a : MaxAttachment} {rest : List MaxAttachment}
    (hlist : message.attachments = a :: rest) (entities : Entities) (replyTo : Option Int) :
    Returned (d.sendOne message.isOutgoing a (some (strip caption)) entities replyTo) {} fun t _ =>
      ∀ u fs', t.Then u fs' (lines v message.isOutgoing rest fs') →
        Counted v d.limitBytes message caption u := by
  have hhead : (splitCaption caption).2 = "" := by rw [hsplit]
  have hsome : some (strip caption) ≠ some "" := by simpa using hne
  cases ha : a.kind.isFile with
  | false =>
      have hkind : a.kind ≠ .sticker := fun h => by simp [h, AttachmentKind.isFile] at ha
      refine (returned_sendOne_line hd ha message.isOutgoing _ entities replyTo).mono fun t _ h => ?_
      rintro u fs' hu
      subst h
      have hline := @lineOf_some caption hne v message.isOutgoing a ha ([] ++ fs')
      have hall := (Heard.Then.say {} (lineOf v message.isOutgoing (some (strip caption)) a)).trans hu
      have hfetched : u.fetched = [] ++ fs' := by simpa using hall.fetched
      cases hcarries : carriesCaption a ([] ++ fs') with
      | true =>
          rw [if_pos hcarries] at hline
          obtain ⟨text, htext, hreads⟩ := hline
          refine counted_of_carried halbum hlist hhead hfetched hcarries (by simp [ha])
            [text] ?_ ?_
          · simp [hkind, hreads]
          · simpa [htext] using hall.said
      | false =>
          rw [hcarries, if_neg Bool.false_ne_true] at hline
          refine counted_of_dropped halbum hlist hhead hfetched hcarries ?_
          simpa [lines, ha, hline] using hall.said
  | true =>
      rw [d.sendOne_eq_sendFile ha]
      refine (returned_sendFile hd hsome entities replyTo).mono fun t _ h => ?_
      rintro u fs' hu
      have hcarries : ∀ r, carriesCaption a ([r] ++ fs') = r.toBool := fun r => by
        unfold carriesCaption
        cases hkind : a.kind <;> simp_all [AttachmentKind.isFile]
      rcases h with ⟨r, hr, rfl⟩ | ⟨file, ⟨hkind, w, hw, rfl⟩ | ⟨hkind, rfl⟩⟩
      · have hall := ((Heard.Then.got {} r).trans (.say _ (noticeOf a r))).trans hu
        have hfetched : u.fetched = [r] ++ fs' := by simpa using hall.fetched
        refine counted_of_dropped halbum hlist hhead hfetched (by rw [hcarries, hr]) ?_
        simpa [lines, ha] using hall.said
      · have hflat : ∃ texts, w.fetched = [.ok file] ∧ w.said = texts ∧
            (texts ++ [strip caption]).countP (reads (strip caption)) =
              if v.flattens u.stickers then 2 else 1 := by
          cases v with
          | bot botId =>
              obtain ⟨taken, rfl⟩ := hw
              have hfirst : u.stickers.head? = some taken := by
                obtain ⟨later, hlater⟩ := hu.stickers
                rw [← hlater]
                rfl
              refine ⟨if taken then [] else [strip caption], rfl, rfl, ?_⟩
              cases taken <;> simp [Voice.flattens, hfirst, reads_self]
          | owner =>
              obtain rfl := hw
              exact ⟨[strip caption], rfl, rfl, by simp [Voice.flattens, reads_self]⟩
        obtain ⟨texts, hwfetched, hwsaid, hcount⟩ := hflat
        have hall := (Heard.Then.say w [strip caption]).trans hu
        have hfetched : u.fetched = [.ok file] ++ fs' := by simpa [hwfetched] using hall.fetched
        refine counted_of_carried halbum hlist hhead hfetched (hcarries _) (by simp [ha])
          (texts ++ [strip caption]) ?_ ?_
        · simpa [hkind] using hcount
        · simpa [hwsaid] using hall.said
      · have hall := ((Heard.Then.got {} (.ok file)).trans (.say _ [strip caption])).trans hu
        have hfetched : u.fetched = [.ok file] ++ fs' := by simpa using hall.fetched
        refine counted_of_carried halbum hlist hhead hfetched (hcarries _) (by simp [ha])
          [strip caption] ?_ ?_
        · simp [hkind, reads_self]
        · simpa using hall.said

theorem counted_single (hne : strip caption ≠ "")
    (hsplit : splitCaption caption = (some (strip caption), ""))
    (halbum : albumAttachments message = []) (hsome : message.attachments ≠ [])
    (entities : Entities) (replyTo : Option Int) :
    Returned (d.deliverReceipt message caption entities replyTo) {} fun t _ =>
      Counted v d.limitBytes message caption t := by
  obtain ⟨a, rest, hlist⟩ := List.exists_cons_of_ne_nil hsome
  have hsingles : singleAttachments message = a :: rest := by
    simp [singleAttachments, halbum, hlist]
  have hused : (!(albumAttachments message).isEmpty) = false := by simp [halbum]
  unfold deliverReceipt
  simp only [hsplit, hsingles, hused]
  rw [if_pos (by simp [halbum])]
  refine (returned_pure (Q := fun t _ => t = {}) rfl).bind fun t parts h => ?_
  subst h
  refine Returned.bind (P := fun t _ => Counted v d.limitBytes message caption t) ?_
    fun t first h => ?_
  · refine (counted_first hd hne hsplit halbum hlist _ _).bind fun t sent h => ?_
    refine (returned_sendSingles_plain hd message.isOutgoing replyTo rest none _).mono fun u _ hu => ?_
    obtain ⟨fs', hthen⟩ := hu
    exact h u fs' hthen
  · exact Returned.bind (P := fun t _ => Counted v d.limitBytes message caption t)
      (returned_pure h) fun t first h => returned_pure h

theorem counted_deliverReceipt (hne : strip caption ≠ "") (hsome : message.attachments ≠ [])
    (entities : Entities) (replyTo : Option Int) :
    Returned (d.deliverReceipt message caption entities replyTo) {} fun t _ =>
      Counted v d.limitBytes message caption t := by
  rcases splitCaption_of_ne hne with hsplit | hsplit
  · by_cases halbum : albumAttachments message = []
    · exact counted_single hd hne hsplit halbum hsome entities replyTo
    · exact counted_album hd hne hsplit halbum entities replyTo
  · exact counted_tail hd hne hsplit entities replyTo

end MaxMediaDelivery

/-- **The words of a caption arrive once.**  Where a delivery returns, the caption was
said exactly once iff it rides along once and no line of the bridge's own says the
same (or the other way round). -/
theorem words_carried_once (w : Wiring) (v : Voice) (message : IncomingMaxMessage)
    (caption : String) (entities : Entities) (replyTo : Option Int)
    (hsome : message.attachments ≠ []) (hne : strip caption ≠ "")
    {tr : List (Asked Call.Outcome)} {receipt : DeliveryReceipt × Bool}
    (h : Runs (((w.delivery v.sender).deliverReceipt message caption entities replyTo).run false)
      tr (.ok receipt)) :
    (Heard.of tr).said.countP (reads (strip caption)) = 1 ↔
      rides v message caption (Heard.of tr) +
        (ownLines v w.limitBytes message caption (Heard.of tr).fetched).countP
          (reads (strip caption)) = 1 := by
  have hcounted : Counted v w.limitBytes message caption (Heard.of tr) :=
    (MaxMediaDelivery.counted_deliverReceipt (d := w.delivery v.sender) rfl hne hsome entities
      replyTo).runs h
  rw [hcounted]

/-! ## two runs -/

/-- Everything is fetched, and Telegram takes everything. -/
private def taking (_ : List (Asked Call.Outcome)) : (c : Call) → c.Outcome
  | .fetch _ => .ok ⟨"voice.ogg", "voice.ogg"⟩
  | .cover _ => .ok none
  | .sending => .ok ()
  | .registered => true
  | .session => true
  | .send (.file ..) _ => .ok (some 10)
  | .send (.message ..) _ => .ok (some 11)
  | .send _ _ => .error (.fault .cancelled)
  | .noteOrigin .. => .ok ()
  | .seedBaseline _ => .ok ()
  | .settleAlbum .. => .ok none
  | .attachTelegram .. => .ok ()
  | .attachOwner .. => .ok ()

/-- One attachment with the caption `hello`, over the contact bot. -/
private def sendsHello (kind : AttachmentKind) :
    List (Asked Call.Outcome) × Except SendError (DeliveryReceipt × Bool) :=
  play taking [] (((Wiring.mk 20971520 false none).delivery (Voice.bot 5).sender).deliverReceipt
    ⟨false, [{ kind }]⟩ "hello" none none false)

/-- A voice message carries it. -/
theorem words_carried_once_voice :
    (Heard.of (sendsHello .voice).1).said.countP (reads (strip "hello")) = 1 :=
  (words_carried_once ⟨20971520, false, none⟩ (.bot 5) ⟨false, [{ kind := .voice }]⟩ "hello" none
    none (by simp) (by decide)
    (show Runs _ _ (.ok ((⟨some 10, [], none⟩ : DeliveryReceipt), true)) from
      runs_play taking [] _)).mpr rfl

/-- A call does not. -/
theorem not_words_carried_once :
    ¬ ∀ (w : Wiring) (v : Voice) (message : IncomingMaxMessage) (caption : String)
      (entities : Entities) (replyTo : Option Int), message.attachments ≠ [] →
      strip caption ≠ "" → ∀ (tr : List (Asked Call.Outcome)) (receipt : DeliveryReceipt × Bool),
      Runs (((w.delivery v.sender).deliverReceipt message caption entities replyTo).run false) tr
        (.ok receipt) → (Heard.of tr).said.countP (reads (strip caption)) = 1 := by
  intro h
  have hone := h ⟨20971520, false, none⟩ (.bot 5) ⟨false, [{ kind := .call }]⟩ "hello" none none
    (by simp) (by decide) (sendsHello .call).1 (⟨some 11, [], none⟩, true) (runs_play taking [] _)
  exact absurd hone (by decide)

end Telemax.Media
