import Telemax.Media.Delivery
import Telemax.Routing.Evidence

/-!
# Telemax.Media.NoRepeat

What a retry may repeat.  `settle` sees one exception and one mark, and reads the
last call of an attempt: a wait, or a transport that is gone, is a retry however
many parts are in the chat already.  Every other failure past the first call is
none.

A run is read through three projections of what it asked: the calls that put or
may have put a message in the chat (`reaches`), the waits (`waits`) and the mark
(`marks`).  `retry_repeats_nothing`: an attempt keeps the contract iff no wait
follows a call that reached the chat.
-/

namespace Telemax

/-- The exception says to wait, or that there is nothing to send through. -/
def SendError.waits : SendError → Bool
  | .ownerTransportUnavailable _ | .telegram (.transportUnavailable _)
  | .telegram (.retryAfter _ _) | .telegram (.floodWait _ _) => true
  | _ => false

/-- An exception of the MAX side. -/
def SendError.fromMax : SendError → Bool
  | .maxClient .. | .api _ => true
  | _ => false

/-- Past the mark of a creating kind only a wait is tried again. -/
theorem settle_retry_iff {kind : JobKind} (hkind : isCreating kind = true) {e : SendError}
    (hmax : e.fromMax = false) : (settle kind e true).verdict = .retry ↔ e.waits = true := by
  have hbad : ∀ {error : TelegramError} {text : String},
      classifyTelegram error = classifyBadRequest text →
        (settleTelegram kind error true).verdict ≠ .retry := by
    intro error text he h
    rw [(settleTelegram_badRequest he).1] at h
    cases h
  cases e with
  | telegram error =>
      cases error with
      | badRequest text => simpa [settle, SendError.waits] using hbad rfl
      | notFound text => simpa [settle, SendError.waits] using hbad rfl
      | _ => simp [settle, settleTelegram, classifyTelegram, SendError.waits, hkind]
  | _ => simp_all [settle, SendError.waits, SendError.fromMax]

namespace Media

open Script

/-! ## what a run shows -/

/-- An answer to a creating call after which the chat holds or may hold a message. -/
def reachedBy {α : Type} : Except RemoteFault α → Bool
  | .ok _ => true
  | .error f => !(f.toSend.answered || f.toSend.neverLeft)

def waitedFor {α : Type} : Except RemoteFault α → Bool
  | .ok _ => false
  | .error f => f.toSend.waits

def reaches : Asked Call.Outcome → Bool
  | ⟨.send _ _, r⟩ => reachedBy r
  | _ => false

/-- A rate limit, a flood wait, or no transport. -/
def waits : Asked Call.Outcome → Bool
  | ⟨.registered, live⟩ => !live
  | ⟨.session, there⟩ => !there
  | ⟨.send _ _, r⟩ => waitedFor r
  | _ => false

/-- `sending()` was called. -/
def marks : Asked Call.Outcome → Bool
  | ⟨.sending, _⟩ => true
  | _ => false

/-- A wait after a call that reached the chat. -/
def waitsAfter : List (Asked Call.Outcome) → Bool
  | [] => false
  | x :: rest => (reaches x && rest.any waits) || waitsAfter rest

/-- The contract: what is or may be in the chat is not sent again. -/
def RepeatsNothing {α : Type} (kind : JobKind) (tr : List (Asked Call.Outcome))
    (res : Except SendError α) : Prop :=
  tr.any reaches = true → ∀ e, res = .error e →
    (settle kind e (tr.any marks)).verdict ≠ .retry

/-- A run that went well met no wait; one that failed, a wait at its end or none. -/
def Told {α : Type} (tr : List (Asked Call.Outcome)) : Except SendError α → Prop
  | .ok _ => tr.any waits = false
  | .error e => e.fromMax = false ∧ e.waits = tr.any waits ∧ tr.dropLast.any waits = false

def Tells {α : Type} (x : SendScript α) : Prop := x.wp Told

theorem reachedBy_of_waitedFor {α : Type} {r : Except RemoteFault α} (h : waitedFor r = true) :
    reachedBy r = false := by
  rcases r with f | a
  · rcases f with error | error | f
    · cases error <;> simp_all [waitedFor, reachedBy, RemoteFault.toSend, SendError.waits,
        SendError.answered, SendError.neverLeft, TelegramError.answered]
    · simp [waitedFor, RemoteFault.toSend, SendError.waits] at h
    · cases f <;> simp [waitedFor, RemoteFault.toSend, Fault.toSend, SendError.waits] at h
  · cases h

theorem fault_waits (f : Fault) : f.toSend.waits = false ∧ f.toSend.fromMax = false := by
  cases f <;> exact ⟨rfl, rfl⟩

theorem remoteFault_fromMax (f : RemoteFault) : f.toSend.fromMax = false := by
  rcases f with error | error | f
  · rfl
  · rfl
  · exact (fault_waits f).2

variable {α β : Type}

/-! ## composing -/

theorem Told.append {tr tr' : List (Asked Call.Outcome)} {res : Except SendError β}
    (h : tr.any waits = false) (h' : Told tr' res) : Told (tr ++ tr') res := by
  cases res with
  | ok b => exact (List.any_append).trans (by rw [h, h']; rfl)
  | error e =>
      obtain ⟨hmax, hwaits, hlast⟩ := h'
      refine ⟨hmax, by rw [List.any_append, h, Bool.false_or, hwaits], ?_⟩
      rcases List.eq_nil_or_concat tr' with rfl | ⟨init, x, rfl⟩
      · rw [List.append_nil, List.any_eq_false]
        exact fun x hx => List.any_eq_false.mp h x (List.mem_of_mem_dropLast hx)
      · rw [List.concat_eq_append, List.dropLast_concat] at hlast
        rw [List.concat_eq_append, ← List.append_assoc, List.dropLast_concat, List.any_append, h,
          hlast]
        rfl

theorem tells_pure (a : α) : Tells (pure a : SendScript α) := rfl

theorem tells_throw {e : SendError} (hmax : e.fromMax = false) (hwaits : e.waits = false) :
    Tells (throw e : SendScript α) := ⟨hmax, hwaits, rfl⟩

theorem Tells.bind {x : SendScript α} {f : α → SendScript β} (hx : Tells x)
    (hf : ∀ a, Tells (f a)) : Tells (x >>= f) :=
  wp_bind_of hx (fun _ _ h => h) fun _ a h => wp_mono (fun _ _ => .append h) (hf a)

theorem Tells.map {x : SendScript α} (f : α → β) (hx : Tells x) : Tells (f <$> x) :=
  hx.bind fun a => tells_pure (f a)

/-- A call: where it waits, the run ends with the wait. -/
theorem tells_ask {c : Call} {f : c.Outcome → SendScript α}
    (hf : ∀ r, waits ⟨c, r⟩ = false → Tells (f r))
    (hw : ∀ r, waits ⟨c, r⟩ = true →
      ∃ e : SendError, f r = throw e ∧ e.waits = true ∧ e.fromMax = false) :
    Tells (ask c >>= f) := by
  change ∀ r, (f r).wp fun tr res => Told ([⟨c, r⟩] ++ tr) res
  intro r
  cases hwait : waits ⟨c, r⟩ with
  | false => exact wp_mono (fun tr res h => .append (by simp [hwait]) h) (hf r hwait)
  | true =>
      obtain ⟨e, hthrow, he, hmax⟩ := hw r hwait
      rw [hthrow]
      exact ⟨hmax, by simp [hwait, he], rfl⟩

/-- A creating call, whose fault is passed on or, if it is no wait, replaced. -/
theorem tells_send {c : Content} {replyTo : Option Int}
    {f : Except RemoteFault c.Reply → SendScript α} (hok : ∀ a, Tells (f (.ok a)))
    (herror : ∀ e : RemoteFault, f (.error e) = throw e.toSend ∨
      e.toSend.waits = false ∧ Tells (f (.error e))) :
    Tells (ask (.send c replyTo) >>= f) := by
  refine tells_ask (fun r hr => ?_) fun r hr => ?_
  · rcases r with e | a
    · rcases herror e with h | h
      · rw [h]
        exact tells_throw (remoteFault_fromMax e) hr
      · exact h.2
    · exact hok a
  · rcases r with e | a
    · rcases herror e with h | h
      · exact ⟨_, h, hr, remoteFault_fromMax e⟩
      · exact absurd hr (by simpa [waits, waitedFor] using h.1)
    · cases hr

theorem tells_mapM {f : α → SendScript β} (hf : ∀ a, Tells (f a)) (l : List α) :
    Tells (l.mapM' f) := by
  induction l with
  | nil => exact tells_pure _
  | cons a l ih => exact (hf a).bind fun b => ih.map _

theorem tells_checkAlbumReceipt (ids : List Int) (n : Nat) : Tells (checkAlbumReceipt ids n) := by
  unfold checkAlbumReceipt
  split
  · exact tells_throw rfl rfl
  · exact tells_pure ()

/-! ## the senders -/

structure TelegramMediaSender.Tells (s : TelegramMediaSender) : Prop where
  sendFile : ∀ form m replyTo, Media.Tells (s.sendFile form m replyTo)
  sendAlbum : ∀ items replyTo, Media.Tells (s.sendAlbum items replyTo)
  sendText : ∀ text replyTo entities buttons, Media.Tells (s.sendText text replyTo entities buttons)
  sendContact : ∀ phone firstName lastName vcard replyTo,
    Media.Tells (s.sendContact phone firstName lastName vcard replyTo)
  sendPhotoUrl : ∀ url caption replyTo buttons,
    Media.Tells (s.sendPhotoUrl url caption replyTo buttons)

namespace RegistryMediaSender

variable (botId : Int)

theorem tells_bot : Tells (bot botId) := by
  refine tells_ask (fun live h => ?_) fun live h => ?_
  · cases live with
    | true => exact tells_pure ()
    | false => cases h
  · cases live with
    | true => cases h
    | false => exact ⟨_, rfl, rfl, rfl⟩

theorem tells_idOf (raw : Option Int) : Tells (idOf raw) := by
  unfold idOf
  split
  · exact tells_throw rfl rfl
  · split
    · exact tells_throw rfl rfl
    · exact tells_pure _

theorem tells_document (m : OutgoingMedia) (replyTo : Option Int) :
    Tells (document botId m replyTo) :=
  (tells_bot botId).bind fun _ =>
    tells_send (c := .file .document m) tells_idOf fun _ => .inl rfl

theorem tells_sendText (text : String) (replyTo : Option Int) (entities : Entities)
    (buttons : Buttons) : Tells (sendText botId text replyTo entities buttons) :=
  (tells_bot botId).bind fun _ =>
    tells_send (c := .message text entities buttons) tells_idOf fun _ => .inl rfl

/-- A refused form is no wait, so the fallback is the first message of its kind. -/
theorem tells_inForm {form : Form} {m : OutgoingMedia} {replyTo : Option Int}
    {accepted : Int → SendScript Int} {fallback : SendScript Int}
    (haccepted : ∀ message, Tells (accepted message)) (hfallback : Tells fallback) :
    Tells (inForm botId form m replyTo accepted fallback) := by
  refine (tells_bot botId).bind fun _ => tells_send (c := .file form m) (fun raw => ?_) fun e => ?_
  · exact (tells_idOf raw).bind haccepted
  · rcases e with error | error | f
    · cases error with
      | badRequest text =>
          dsimp only
          split
          · exact .inr ⟨rfl, hfallback⟩
          · exact .inl rfl
      | _ => exact .inl rfl
    · exact .inl rfl
    · exact .inl rfl

theorem tells_sendPhoto (m : OutgoingMedia) (replyTo : Option Int) :
    Tells (sendPhoto botId m replyTo) :=
  tells_inForm botId tells_pure (tells_document botId m replyTo)

theorem tells_sendVideo (m : OutgoingMedia) (replyTo : Option Int) :
    Tells (sendVideo botId m replyTo) :=
  tells_inForm botId tells_pure (tells_document botId m replyTo)

theorem tells_sendVideoNote (m : OutgoingMedia) (replyTo : Option Int) :
    Tells (sendVideoNote botId m replyTo) := by
  refine tells_inForm botId (fun message => ?_) (tells_sendVideo botId _ replyTo)
  split
  · exact tells_pure message
  · exact (tells_sendText botId _ _ _ _).bind fun _ => tells_pure message

theorem tells_sendFile (form : Form) (m : OutgoingMedia) (replyTo : Option Int) :
    Tells (sendFile botId form m replyTo) := by
  cases form with
  | photo => exact tells_sendPhoto botId m replyTo
  | video => exact tells_sendVideo botId m replyTo
  | videoNote => exact tells_sendVideoNote botId m replyTo
  | document => exact tells_document botId m replyTo
  | sticker => exact tells_inForm botId tells_pure (tells_sendPhoto botId m replyTo)
  | voice | audio => exact tells_inForm botId tells_pure (tells_document botId m replyTo)

theorem tells_dispatchSingle (replyTo : Option Int) (m : OutgoingMedia) :
    Tells (dispatchSingle botId replyTo m) := by
  unfold dispatchSingle
  split
  · exact tells_sendPhoto botId m replyTo
  · exact tells_sendVideo botId m replyTo

theorem tells_sendAlbum (items : List OutgoingMedia) (replyTo : Option Int) :
    Tells (sendAlbum botId items replyTo) := by
  refine (tells_bot botId).bind fun _ => tells_send (c := .group items) (fun answer => ?_) fun e => ?_
  · exact (tells_mapM tells_idOf answer.ids).bind fun ids =>
      (tells_checkAlbumReceipt ids items.length).bind fun _ => tells_pure _
  · rcases e with error | error | f
    · cases error with
      | badRequest text =>
          dsimp only
          split
          · exact .inr ⟨rfl, (tells_mapM (tells_dispatchSingle botId replyTo) items).bind
              fun ids => (tells_checkAlbumReceipt ids items.length).bind fun _ => tells_pure _⟩
          · exact .inl rfl
      | _ => exact .inl rfl
    · exact .inl rfl
    · exact .inl rfl

theorem tells_sendContact (phone firstName : String) (lastName vcard : Option String)
    (replyTo : Option Int) : Tells (sendContact botId phone firstName lastName vcard replyTo) :=
  (tells_bot botId).bind fun _ =>
    tells_send (c := .contact phone firstName lastName vcard) tells_idOf fun _ => .inl rfl

theorem tells_sendPhotoUrl (url caption : String) (replyTo : Option Int) (buttons : Buttons) :
    Tells (sendPhotoUrl botId url caption replyTo buttons) := by
  refine (tells_bot botId).bind fun _ =>
    tells_send (c := .photoUrl url caption buttons) (fun raw => ?_) fun e => ?_
  · exact (tells_idOf raw).map some
  · rcases e with error | error | f
    · cases error with
      | badRequest text =>
          dsimp only
          split
          · exact .inr ⟨rfl, tells_pure none⟩
          · exact .inl rfl
      | _ => exact .inl rfl
    · exact .inl rfl
    · exact .inl rfl

end RegistryMediaSender

theorem tells_registryMediaSender (botId : Int) : (registryMediaSender botId).Tells where
  sendFile := RegistryMediaSender.tells_sendFile botId
  sendAlbum := RegistryMediaSender.tells_sendAlbum botId
  sendText := RegistryMediaSender.tells_sendText botId
  sendContact := RegistryMediaSender.tells_sendContact botId
  sendPhotoUrl := RegistryMediaSender.tells_sendPhotoUrl botId

namespace MtprotoOwnerSender

theorem tells_require : Tells require := by
  refine tells_ask (fun there h => ?_) fun there h => ?_
  · cases there with
    | true => exact tells_pure ()
    | false => cases h
  · cases there with
    | true => cases h
    | false => exact ⟨_, rfl, rfl, rfl⟩

theorem tells_named (text : String) (raw : Option Int) : Tells (named text (.ok raw)) := by
  cases raw with
  | none => exact tells_throw rfl rfl
  | some message => exact tells_pure message

theorem tells_place (form : Form) (m : OutgoingMedia) : Tells (place form m) :=
  tells_require.bind fun _ =>
    tells_send (c := .ownFile form m) (tells_named _) fun _ => .inl rfl

theorem tells_grouped (items : List OutgoingMedia) : Tells (grouped items) := by
  refine tells_require.bind fun _ => tells_send (c := .ownAlbum _ _ _) (fun placed => ?_)
    fun _ => .inl rfl
  dsimp only
  split
  · exact tells_throw rfl rfl
  · exact (tells_checkAlbumReceipt _ items.length).bind fun _ => tells_pure _

/-- Only "it named no id" is replaced, so a wait stays one. -/
theorem tells_placeFrom (total index : Nat) (items : List OutgoingMedia) :
    Tells (placeFrom total index items) := by
  induction items generalizing index with
  | nil => exact tells_pure []
  | cons item rest ih =>
      refine Tells.bind ?_ fun message => (ih (index + 1)).bind fun messages => tells_pure _
      refine wp_tryCatch_of (tells_place _ _) (fun _ _ h => h) fun tr e h => ?_
      have hpass : Told (tr ++ []) (.error e : Except SendError Int) := by
        rwa [List.append_nil]
      cases e with
      | unconfirmedDelivery text =>
          obtain ⟨-, hwaits, hlast⟩ := h
          exact ⟨rfl, by rw [List.append_nil, ← hwaits]; rfl, by rwa [List.append_nil]⟩
      | _ => exact hpass

theorem tells_sendAlbum (items : List OutgoingMedia) (replyTo : Option Int) :
    Tells (sendAlbum items replyTo) := by
  unfold sendAlbum
  split
  · exact tells_grouped items
  · exact (tells_placeFrom _ 0 items).bind fun ids =>
      (tells_checkAlbumReceipt ids items.length).bind fun _ => tells_pure _

theorem tells_sendText (text : String) (replyTo : Option Int) (entities : Entities)
    (buttons : Buttons) : Tells (sendText text replyTo entities buttons) :=
  tells_require.bind fun _ =>
    tells_send (c := .ownMessage text entities) (tells_named _) fun _ => .inl rfl

end MtprotoOwnerSender

theorem tells_mtprotoOwnerSender : mtprotoOwnerSender.Tells where
  sendFile _ m _ := MtprotoOwnerSender.tells_place _ m
  sendAlbum := MtprotoOwnerSender.tells_sendAlbum
  sendText := MtprotoOwnerSender.tells_sendText
  sendContact _ _ _ _ replyTo := MtprotoOwnerSender.tells_sendText _ replyTo none none
  sendPhotoUrl _ _ _ _ := tells_pure none

/-! ## a delivery -/

/-- What the flag of the announcement says about a run. -/
structure Announced (before : Bool) (tr : List (Asked Call.Outcome))
    (res : Except SendError (α × Bool)) : Prop where
  reached : tr.any reaches = true → before = true ∨ tr.any marks = true
  kept : ∀ a, res = .ok (a, true) → before = true ∨ tr.any marks = true

def Delivers (x : Delivering α) : Prop :=
  ∀ before, (x.run before).wp fun tr res => Told tr res ∧ Announced before tr res

theorem delivers_pure (a : α) : Delivers (pure a : Delivering α) := by
  refine fun before => ⟨rfl, fun h => absurd h (by simp), ?_⟩
  rintro a h
  cases h
  exact .inl rfl

theorem delivers_raise {e : SendError} (hmax : e.fromMax = false) (hwaits : e.waits = false) :
    Delivers (raise e : Delivering α) :=
  fun _ => ⟨⟨hmax, hwaits, rfl⟩, fun h => absurd h (by simp), fun _ h => by cases h⟩

theorem Delivers.bind {x : Delivering α} {f : α → Delivering β} (hx : Delivers x)
    (hf : ∀ a, Delivers (f a)) : Delivers (x >>= f) := by
  intro before
  refine wp_bind_of (hx before) (fun tr e h => ⟨h.1, h.2.reached, fun _ h => by cases h⟩) ?_
  rintro tr ⟨a, between⟩ ⟨htold, hann⟩
  refine wp_mono (fun tr' res h => ⟨.append htold h.1, ?_, ?_⟩) (hf a between)
  · rw [List.any_append, List.any_append, Bool.or_eq_true, Bool.or_eq_true]
    rintro (hreach | hreach)
    · exact (hann.reached hreach).imp_right .inl
    · rcases h.2.reached hreach with rfl | hmark
      · exact (hann.kept a rfl).imp_right .inl
      · exact .inr (.inr hmark)
  · intro b hb
    rw [List.any_append, Bool.or_eq_true]
    rcases h.2.kept b hb with rfl | hmark
    · exact (hann.kept a rfl).imp_right .inl
    · exact .inr (.inr hmark)

/-- A step that creates nothing. -/
def Prepares (x : SendScript α) : Prop :=
  x.wp fun tr res => Told tr res ∧ tr.any reaches = false

/-- It leaves the flag alone. -/
theorem delivers_lift {x : SendScript α} (hx : Prepares x) : Delivers (liftM x : Delivering α) := by
  intro before
  change (x >>= fun a => pure (a, before)).wp _
  refine wp_bind_of hx ?_ ?_
  · exact fun tr e h => ⟨h.1, fun hr => by simp [h.2] at hr, fun _ h => by cases h⟩
  · intro tr a h
    refine ⟨.append h.1 (tells_pure (a, before)), fun hr => ?_, fun b hb => ?_⟩
    · simp [h.2] at hr
    · cases hb
      exact .inl rfl

/-- A call of the preparation, and what is made of its answer. -/
theorem prepares_ask {c : Call} {f : c.Outcome → SendScript α}
    (hc : ∀ r, waits ⟨c, r⟩ = false ∧ reaches ⟨c, r⟩ = false) (hf : ∀ r, Prepares (f r)) :
    Prepares (ask c >>= f) := by
  change ∀ r, (f r).wp fun tr res =>
    Told ([⟨c, r⟩] ++ tr) res ∧ List.any (⟨c, r⟩ :: tr) reaches = false
  intro r
  refine wp_mono (fun tr res h => ?_) (hf r)
  exact ⟨.append (by simp [(hc r).1]) h.1, by simp [(hc r).2, h.2]⟩

theorem prepares_pure (a : α) : Prepares (pure a : SendScript α) := ⟨rfl, rfl⟩

theorem prepares_fault (f : Fault) : Prepares (throw f.toSend : SendScript α) :=
  ⟨⟨(fault_waits f).2, (fault_waits f).1, rfl⟩, rfl⟩

theorem prepares_fetch (a : MaxAttachment) : Prepares (ask (.fetch a)) :=
  prepares_ask (fun _ => ⟨rfl, rfl⟩) prepares_pure

theorem prepares_cover (a : MaxAttachment) (file : LocalFile) : Prepares (cover a file) := by
  unfold cover
  split
  case h_1 | h_2 =>
    refine prepares_ask (fun _ => ⟨rfl, rfl⟩) fun r => ?_
    rcases r with f | thumbnail
    · exact prepares_fault f
    · exact prepares_pure thumbnail
  case h_3 => exact prepares_pure none

/-- **The announcement is total**: every call of the sender goes through it. -/
theorem delivers_announcing {x : SendScript α} (hx : Tells x) : Delivers (announcing x) := by
  intro before
  have hpair : Tells (x >>= fun a => (pure (a, true) : SendScript (α × Bool))) :=
    hx.bind fun a => tells_pure (a, true)
  cases before with
  | true => exact wp_mono (fun tr res h => ⟨h, fun _ => .inl rfl, fun _ _ => .inl rfl⟩) hpair
  | false =>
      have hmarked : ∀ tr : List (Asked Call.Outcome), ∀ r,
          (⟨.sending, r⟩ :: tr).any marks = true := fun _ _ => rfl
      change ∀ r, Script.wp _ _
      rintro (f | ⟨⟩)
      · exact ⟨⟨(fault_waits f).2, (fault_waits f).1, rfl⟩, fun _ => .inr (hmarked _ _),
          fun _ _ => .inr (hmarked _ _)⟩
      · have hsent : [(⟨.sending, .ok ()⟩ : Asked Call.Outcome)].any waits = false := rfl
        exact wp_mono (fun tr res h => ⟨Told.append hsent h,
          fun _ => .inr (hmarked _ _), fun _ _ => .inr (hmarked _ _)⟩) hpair

namespace MaxMediaDelivery

variable {d : MaxMediaDelivery}

theorem prepares_noteStickerOrigin (a : MaxAttachment) (file : LocalFile) :
    Prepares (d.noteStickerOrigin a file) := by
  unfold noteStickerOrigin
  split
  · exact prepares_pure ()
  · refine prepares_ask (fun _ => ⟨rfl, rfl⟩) fun r => ?_
    rcases r with (_ | _) | _
    · exact prepares_fault .cancelled
    · exact prepares_pure ()
    · exact prepares_pure ()

section

variable (hs : d.sender.Tells)
include hs

theorem delivers_sendText (text : String) (replyTo : Option Int) (entities : Entities)
    (buttons : Buttons) : Delivers (announcing (d.sender.sendText text replyTo entities buttons)) :=
  delivers_announcing (hs.sendText text replyTo entities buttons)

theorem delivers_dispatch (m : OutgoingMedia) (replyTo : Option Int) :
    Delivers (d.dispatch m replyTo) := by
  refine (delivers_announcing (hs.sendFile _ m replyTo)).bind fun sent => ?_
  split
  · exact delivers_pure sent
  · exact (delivers_sendText hs _ _ _ _).bind fun _ => delivers_pure sent

theorem delivers_gather (caption : Option String) (entities : Entities) (replyTo : Option Int)
    (attachments : List MaxAttachment) (items : List OutgoingMedia) :
    Delivers (d.gather caption entities replyTo attachments items) := by
  induction attachments generalizing items with
  | nil => exact delivers_pure items
  | cons a rest ih =>
      refine (delivers_lift (prepares_fetch a)).bind fun r => ?_
      rcases r with (limit | ⟨code, text⟩ | f) | file
      · exact (delivers_sendText hs _ _ _ _).bind fun _ => ih items
      · exact delivers_raise rfl rfl
      · exact delivers_raise (fault_waits f).2 (fault_waits f).1
      · exact (delivers_lift (prepares_cover a file)).bind fun _ => ih _

theorem delivers_sendAlbum (attachments : List MaxAttachment) (caption : Option String)
    (entities : Entities) (replyTo : Option Int) :
    Delivers (d.sendAlbum attachments caption entities replyTo) := by
  refine (delivers_gather hs caption entities replyTo attachments []).bind fun items => ?_
  split
  · exact delivers_pure _
  · exact (delivers_dispatch hs _ replyTo).bind fun _ => delivers_pure _
  · refine (delivers_announcing (hs.sendAlbum items replyTo)).bind fun receipt => ?_
    split
    · exact delivers_raise rfl rfl
    · exact delivers_pure _

theorem delivers_sendContact (a : MaxAttachment) (caption : Option String) (entities : Entities)
    (replyTo : Option Int) : Delivers (d.sendContact a caption entities replyTo) := by
  unfold sendContact
  split
  · exact delivers_announcing (hs.sendContact _ _ _ _ _)
  · dsimp only
    split
    · refine (delivers_announcing (hs.sendPhotoUrl _ _ _ _)).bind fun shown => ?_
      cases shown with
      | some message => exact delivers_pure message
      | none => exact delivers_sendText hs _ _ _ _
    · exact delivers_sendText hs _ _ _ _

theorem delivers_sendFile (a : MaxAttachment) (caption : Option String) (entities : Entities)
    (replyTo : Option Int) : Delivers (d.sendFile a caption entities replyTo) := by
  refine (delivers_lift (prepares_fetch a)).bind fun r => ?_
  rcases r with (limit | ⟨code, text⟩ | f) | file
  · exact delivers_sendText hs _ _ _ _
  · dsimp only
    split
    · exact delivers_sendText hs _ _ _ _
    · exact delivers_raise rfl rfl
  · exact delivers_raise (fault_waits f).2 (fault_waits f).1
  · exact (delivers_lift (prepares_cover a file)).bind fun _ =>
      (delivers_dispatch hs _ replyTo).bind fun sent =>
        (delivers_lift (prepares_noteStickerOrigin a file)).bind fun _ => delivers_pure sent

theorem delivers_sendOne (isOutgoing : Bool) (a : MaxAttachment) (caption : Option String)
    (entities : Entities) (replyTo : Option Int) :
    Delivers (d.sendOne isOutgoing a caption entities replyTo) := by
  unfold sendOne
  split
  · exact delivers_sendText hs _ _ _ _
  · exact delivers_sendText hs _ _ _ _
  · exact delivers_sendText hs _ _ _ _
  · exact delivers_sendContact hs a caption entities replyTo
  · exact delivers_sendText hs _ _ _ _
  · exact delivers_sendFile hs a caption entities replyTo

theorem delivers_sendSingles (isOutgoing : Bool) (replyTo : Option Int)
    (attachments : List MaxAttachment) (caption : Option String) (entities : Entities)
    (first : Option Int) :
    Delivers (d.sendSingles isOutgoing replyTo attachments caption entities first) := by
  induction attachments generalizing caption entities first with
  | nil => exact delivers_pure first
  | cons a rest ih =>
      exact (delivers_sendOne hs isOutgoing a caption entities _).bind fun _ => ih none none _

theorem delivers_sendTail (tail : String) (replyTo first : Option Int) :
    Delivers (d.sendTail tail replyTo first) := by
  unfold sendTail
  split
  · exact delivers_pure first
  · exact (delivers_sendText hs _ _ _ _).bind fun _ => delivers_pure _

theorem delivers_deliverReceipt (message : IncomingMaxMessage) (caption : String)
    (entities : Entities) (replyTo : Option Int) :
    Delivers (d.deliverReceipt message caption entities replyTo) := by
  unfold deliverReceipt
  generalize splitCaption caption = halves
  dsimp only
  refine Delivers.bind ?_ fun parts => ?_
  · split
    · exact delivers_pure _
    · exact delivers_sendAlbum hs _ _ _ _
  · exact (delivers_sendSingles hs _ _ _ _ _ _).bind fun first =>
      (delivers_sendTail hs _ _ first).bind fun _ => delivers_pure _

end

end MaxMediaDelivery

/-! ## an attempt -/

/-- What every attempt keeps: it tells of its waits, and nothing is sent before the mark. -/
def Keeps (x : SendScript α) : Prop :=
  x.wp fun tr res => Told tr res ∧ (tr.any reaches = true → tr.any marks = true)

theorem Keeps.bind_prepares {x : SendScript α} {f : α → SendScript β} (hx : Keeps x)
    (hf : ∀ a, Prepares (f a)) : Keeps (x >>= f) := by
  refine wp_bind_of hx (fun _ _ h => h) fun tr a h => ?_
  refine wp_mono (fun tr' res h' => ⟨.append h.1 h'.1, fun hreach => ?_⟩) (hf a)
  rw [List.any_append, h'.2, Bool.or_false] at hreach
  rw [List.any_append, h.2 hreach, Bool.true_or]

theorem keeps_of_delivers {x : Delivering α} (hx : Delivers x) : Keeps (x.run false) :=
  wp_mono (fun _ _ h => ⟨h.1, fun hreach => (h.2.reached hreach).resolve_left (by simp)⟩) (hx false)

/-- Past the mark anything may be sent. -/
theorem keeps_of_mark {f : Unit → SendScript α} (hf : Tells (f ())) : Keeps (mark >>= f) := by
  have hmark : mark.wp fun tr res => Told tr res ∧ tr.any marks = true := by
    change ∀ r, Script.wp _ _
    rintro (f | ⟨⟩)
    · exact ⟨⟨(fault_waits f).2, (fault_waits f).1, rfl⟩, rfl⟩
    · exact ⟨rfl, rfl⟩
  refine wp_bind_of hmark (fun _ _ h => ⟨h.1, fun _ => h.2⟩) fun tr _ h => ?_
  refine wp_mono (fun tr' res h' => ⟨.append h.1 h', fun _ => ?_⟩) hf
  rw [List.any_append, h.2, Bool.true_or]

attribute [irreducible] Keeps

theorem Prepares.tells {x : SendScript α} (h : Prepares x) : Tells x := wp_mono (fun _ _ h => h.1) h

theorem Prepares.bind {x : SendScript α} {f : α → SendScript β} (hx : Prepares x)
    (hf : ∀ a, Prepares (f a)) : Prepares (x >>= f) := by
  refine wp_bind_of hx (fun _ _ h => h) fun tr a h => ?_
  refine wp_mono (fun tr' res h' => ⟨.append h.1 h'.1, ?_⟩) (hf a)
  rw [List.any_append, h.2, h'.2]
  rfl

theorem prepares_unconfirmed (text : String) :
    Prepares (throw (.unconfirmedDelivery text) : SendScript α) := ⟨⟨rfl, rfl, rfl⟩, rfl⟩

theorem prepares_settleAlbumOf (column : IdColumn) (link : Nat) (album : List DeliveredPart) :
    Prepares (settleAlbumOf column link album) := by
  refine prepares_ask (fun _ => ⟨rfl, rfl⟩) fun r => ?_
  rcases r with f | _ | error
  · exact prepares_fault f
  · exact prepares_pure ()
  · exact prepares_unconfirmed _

/-- The mapping is written on the bridge's own side. -/
theorem prepares_settleTelegram (link : Option Nat) (sent : Int) (album : List DeliveredPart) :
    Prepares (settleTelegramDeliveryMapping link sent album) := by
  unfold settleTelegramDeliveryMapping
  split
  · exact prepares_pure sent
  · split
    · refine prepares_ask (fun _ => ⟨rfl, rfl⟩) fun r => ?_
      rcases r with f | ⟨⟩
      · exact prepares_fault f
      · exact prepares_pure sent
    · exact (prepares_settleAlbumOf _ _ _).bind fun _ => prepares_pure sent

theorem prepares_settleOwner (link : Option Nat) (account : Option Int) (sent : Int)
    (album : List DeliveredPart) :
    Prepares (settleOwnerDeliveryMapping link account sent album) := by
  unfold settleOwnerDeliveryMapping
  split
  · exact prepares_pure sent
  · split
    · refine prepares_ask (fun _ => ⟨rfl, rfl⟩) fun r => ?_
      rcases r with f | ⟨⟩
      · exact prepares_fault f
      · exact prepares_pure sent
    · exact (prepares_settleAlbumOf _ _ _).bind fun _ => prepares_pure sent

namespace Attempt

theorem prepares_headOf (text : String) (receipt : DeliveryReceipt) :
    Prepares (headOf text receipt) := by
  unfold headOf
  split
  · exact prepares_pure _
  · exact prepares_unconfirmed text

theorem prepares_seedPlacedBaseline (message : Int) : Prepares (seedPlacedBaseline message) := by
  refine prepares_ask (fun _ => ⟨rfl, rfl⟩) fun r => ?_
  rcases r with (_ | _) | _
  · exact prepares_fault .cancelled
  · exact prepares_pure ()
  · exact prepares_pure ()

theorem keeps_run (w : Wiring) (a : Attempt) : Keeps (a.run w) := by
  cases a with
  | text bot text entities replyTo link =>
      refine keeps_of_mark ((RegistryMediaSender.tells_bot bot).bind fun _ => ?_)
      refine tells_send (c := .message text entities none) (fun raw => ?_) fun _ => .inl rfl
      cases raw with
      | none => exact tells_throw rfl rfl
      | some sent => exact (prepares_settleTelegram link sent []).tells
  | media bot message caption entities replyTo link =>
      have hreceipt := keeps_of_delivers (MaxMediaDelivery.delivers_deliverReceipt
        (d := w.delivery (registryMediaSender bot)) (tells_registryMediaSender bot) message
        caption entities replyTo)
      refine Keeps.bind_prepares hreceipt fun x => ?_
      exact (prepares_headOf _ x.1).bind fun head => prepares_settleTelegram link head x.1.album
  | ownerText text entities account link =>
      refine keeps_of_mark (MtprotoOwnerSender.tells_require.bind fun _ => ?_)
      have hrest : ∀ placed : Int, Tells (do
          seedPlacedBaseline placed
          settleOwnerDeliveryMapping link account placed []) := fun placed =>
        ((prepares_seedPlacedBaseline placed).bind fun _ => prepares_settleOwner link account placed []).tells
      refine tells_send (c := .ownMessage text entities) (fun raw => ?_) fun _ => .inl rfl
      exact (MtprotoOwnerSender.tells_named _ raw).bind hrest
  | ownerMedia message caption entities account link =>
      have hreceipt := keeps_of_delivers (MaxMediaDelivery.delivers_deliverReceipt
        (d := w.delivery mtprotoOwnerSender) tells_mtprotoOwnerSender message caption entities none)
      refine Keeps.bind_prepares hreceipt fun x => ?_
      exact (prepares_headOf _ x.1).bind fun head => prepares_settleOwner link account head x.1.album

theorem isCreating_kind (a : Attempt) : isCreating a.kind = true := by
  cases a <;> rfl

end Attempt

/-! ## the contract -/

theorem waitsAfter_of_none {tr : List (Asked Call.Outcome)} (h : tr.any waits = false) :
    waitsAfter tr = false := by
  induction tr with
  | nil => rfl
  | cons x tr ih =>
      rw [List.any_cons, Bool.or_eq_false_iff] at h
      simp [waitsAfter, h.2, ih h.2]

theorem waitsAfter_concat {init : List (Asked Call.Outcome)} {x : Asked Call.Outcome}
    (hx : waits x = true) : waitsAfter (init ++ [x]) = init.any reaches := by
  induction init with
  | nil => simp [waitsAfter]
  | cons y init ih =>
      have hany : (init ++ [x]).any waits = true := by simp [hx]
      rw [List.cons_append, waitsAfter, hany, ih, List.any_cons, Bool.and_true]

/-- A wait creates nothing. -/
theorem reaches_of_waits {x : Asked Call.Outcome} (h : waits x = true) : reaches x = false := by
  obtain ⟨c, r⟩ := x
  cases c with
  | send c replyTo => exact reachedBy_of_waitedFor h
  | _ => rfl

/-- A run that ends with a wait met it last, so it is the calls before it that count. -/
theorem waitsAfter_of_told {tr : List (Asked Call.Outcome)} {e : SendError}
    (h : Told tr (.error e : Except SendError α)) (he : e.waits = true) :
    waitsAfter tr = tr.any reaches := by
  obtain ⟨-, hany, hlast⟩ := h
  rw [he] at hany
  rcases List.eq_nil_or_concat tr with rfl | ⟨init, x, rfl⟩
  · simp at hany
  · rw [List.concat_eq_append] at *
    rw [List.dropLast_concat] at hlast
    rw [List.any_append, hlast] at hany
    have hx : waits x = true := by simpa using hany.symm
    rw [waitsAfter_concat hx, List.any_append]
    simp [reaches_of_waits hx]

/-- **A retry repeats nothing** iff no wait follows a call that reached the chat. -/
theorem retry_repeats_nothing (w : Wiring) (a : Attempt) {tr : List (Asked Call.Outcome)}
    {res : Except SendError Int} (h : Runs (a.run w) tr res) :
    RepeatsNothing a.kind tr res ↔ waitsAfter tr = false := by
  have hkeeps := a.keeps_run w
  unfold Keeps at hkeeps
  obtain ⟨htold, hmark⟩ := Runs.of_wp hkeeps h
  cases res with
  | ok sent => exact iff_of_true (fun _ _ h => by cases h) (waitsAfter_of_none htold)
  | error e =>
      have hretry : tr.any reaches = true →
          ((settle a.kind e (tr.any marks)).verdict = .retry ↔ e.waits = true) := fun hreach => by
        rw [hmark hreach]
        exact settle_retry_iff a.isCreating_kind htold.1
      cases he : e.waits with
      | false =>
          refine iff_of_true (fun hreach e' heq => ?_) (waitsAfter_of_none (htold.2.1.symm.trans he))
          obtain rfl := Except.error.inj heq
          intro hverdict
          rw [(hretry hreach).mp hverdict] at he
          cases he
      | true =>
          rw [waitsAfter_of_told htold he]
          constructor
          · intro hnothing
            refine Bool.eq_false_iff.mpr fun hreach => ?_
            exact hnothing hreach e rfl ((hretry hreach).mpr he)
          · intro hno hreach
            rw [hno] at hreach
            cases hreach

/-! ## two runs -/

/-- A video note with a caption, over the contact bot. -/
private def noteWithCaption : Attempt :=
  .media 5 ⟨false, [{ kind := .videoNote }]⟩ "hello" none none none

private def plain : Wiring := ⟨20971520, false, none⟩

/-- The note is accepted; the caption is answered by `text`. -/
private def note (text : Except RemoteFault (Option Int)) (_ : List (Asked Call.Outcome)) :
    (c : Call) → c.Outcome
  | .fetch _ => .ok ⟨"note.mp4", "note.mp4"⟩
  | .cover _ => .ok none
  | .sending => .ok ()
  | .registered => true
  | .session => true
  | .send (.file ..) _ => .ok (some 10)
  | .send (.message ..) _ => text
  | .send _ _ => .error (.fault .cancelled)
  | .noteOrigin .. => .ok ()
  | .seedBaseline _ => .ok ()
  | .settleAlbum .. => .ok none
  | .attachTelegram .. => .ok ()
  | .attachOwner .. => .ok ()

theorem retry_repeats_nothing_silent :
    RepeatsNothing .maxToTgMedia
      (play (note (.error (.telegram (.network "timeout")))) [] (noteWithCaption.run plain)).1
      (play (note (.error (.telegram (.network "timeout")))) [] (noteWithCaption.run plain)).2 :=
  (retry_repeats_nothing plain noteWithCaption (runs_play _ _ _)).mpr rfl

/-- The note is in the chat, the caption is told to wait, and the next attempt sends both. -/
theorem not_retry_repeats_nothing :
    ¬ ∀ (w : Wiring) (a : Attempt) (tr : List (Asked Call.Outcome)) (res : Except SendError Int),
      Runs (a.run w) tr res → RepeatsNothing a.kind tr res := by
  intro h
  have hnothing := h plain noteWithCaption _ _
    (runs_play (note (.error (.telegram (.retryAfter 5 "Too Many Requests")))) [] _)
  exact hnothing rfl _ rfl rfl

end Media

end Telemax
