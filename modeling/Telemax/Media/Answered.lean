import Telemax.Media.Delivery
import Telemax.Media.ExpectedAlbum

/-!
# Telemax.Media.Answered

A delivery every call of which is answered.  A run is read through what it
fetched (`fetches`), the message each file went out in (`placed`) and what was
settled (`settlements`); `Answers x Q` says that such a run ends with a result,
and what it shows.  Both senders answer with as many messages as they were given
files, in their order (`TelegramMediaSender.Answers`), and so does the album of a
delivery (`AlbumSent`).
-/

namespace Telemax.Media

open Script AlbumSettlement

/-! ## what a run shows -/

/-- What came of each attachment that was asked for, in order. -/
def fetches (tr : List (Asked Call.Outcome)) : List (Except FetchError LocalFile) :=
  tr.filterMap fun
    | ⟨.fetch _, r⟩ => some r
    | _ => none

/-- The ids in an answer of one message. -/
def idsOf : Except RemoteFault (Option Int) → List Int
  | .ok raw => raw.toList
  | .error _ => []

/-- The messages an answer names. -/
def namedBy : (c : Content) → Except RemoteFault c.Reply → List Int
  | .group _, .ok answer => answer.ids.filterMap id
  | .ownAlbum .., .ok ids => ids.filterMap id
  | .file .., r | .message .., r | .contact .., r | .photoUrl .., r | .ownFile .., r
  | .ownMessage .., r => idsOf r
  | _, _ => []

/-- The files a creating call carries. -/
def Content.paths : Content → List String
  | .file _ m | .ownFile _ m => [m.path]
  | .group items => items.map (·.path)
  | .ownAlbum paths _ _ => paths
  | _ => []

def named (tr : List (Asked Call.Outcome)) : List Int :=
  tr.flatMap fun
    | ⟨.send c _, r⟩ => namedBy c r
    | _ => []

/-- Each file, with the message it went out in. -/
def placed (tr : List (Asked Call.Outcome)) : List (String × Int) :=
  tr.flatMap fun
    | ⟨.send c _, r⟩ => c.paths.zip (namedBy c r)
    | _ => []

def settlements (tr : List (Asked Call.Outcome)) : List (IdColumn × Nat × Receipt) :=
  tr.filterMap fun
    | ⟨.settleAlbum column link parts, _⟩ => some (column, link, parts)
    | _ => none

/-- How many messages an answer has to name. -/
def Content.size : Content → Nat
  | .group items => items.length
  | .ownAlbum paths _ _ => paths.length
  | _ => 1

/-- Every message the answer stands for has an id. -/
def fullyNamed : (c : Content) → Except RemoteFault c.Reply → Bool
  | .group items, .ok answer => answer.ids.all (·.isSome) && answer.ids.length == items.length
  | .ownAlbum paths _ _, .ok ids => ids.all (·.isSome) && ids.length == paths.length
  | .file .., r | .message .., r | .contact .., r | .photoUrl .., r | .ownFile .., r
  | .ownMessage .., r => !(idsOf r).isEmpty
  | _, _ => false

def notCancelled : Except Fault Unit → Bool
  | .error .cancelled => false
  | _ => true

/-- The call was answered: the file came or is too large (or has no source, where
it goes alone), the transport is there, and every message has its id. -/
def wellAnswered : Asked Call.Outcome → Bool
  | ⟨.fetch a, r⟩ =>
      match (r : Except FetchError LocalFile) with
      | .ok _ | .error (.tooLarge _) => true
      | .error (.unavailable code _) => code = "source_missing" && !a.kind.isAlbum
      | .error (.fault _) => false
  | ⟨.cover _, r⟩ => r.toBool
  | ⟨.sending, r⟩ => r.toBool
  | ⟨.registered, live⟩ => live
  | ⟨.session, there⟩ => there
  | ⟨.send c _, r⟩ => fullyNamed c r
  | ⟨.noteOrigin .., r⟩ => notCancelled r
  | ⟨.seedBaseline _, r⟩ => notCancelled r
  | ⟨.settleAlbum .., _⟩ => true
  | ⟨.attachTelegram .., r⟩ => r.toBool
  | ⟨.attachOwner .., r⟩ => r.toBool

/-- Every call was answered, with new ids in ascending order. -/
structure Usable (tr : List (Asked Call.Outcome)) : Prop where
  answered : tr.all wellAnswered = true
  positive : ∀ m ∈ named tr, 0 < m
  ascending : (named tr).Pairwise (· < ·)

variable {tr tr' : List (Asked Call.Outcome)}

@[simp] theorem fetches_append : fetches (tr ++ tr') = fetches tr ++ fetches tr' :=
  List.filterMap_append

@[simp] theorem named_append : named (tr ++ tr') = named tr ++ named tr' := List.flatMap_append

@[simp] theorem placed_append : placed (tr ++ tr') = placed tr ++ placed tr' :=
  List.flatMap_append

@[simp] theorem settlements_append :
    settlements (tr ++ tr') = settlements tr ++ settlements tr' :=
  List.filterMap_append

theorem Usable.append (h : Usable (tr ++ tr')) : Usable tr ∧ Usable tr' := by
  obtain ⟨hall, hpos, hasc⟩ := h
  rw [List.all_append, Bool.and_eq_true] at hall
  rw [named_append] at hpos hasc
  obtain ⟨hasc₁, hasc₂, -⟩ := List.pairwise_append.mp hasc
  exact ⟨⟨hall.1, fun m hm => hpos m (List.mem_append_left _ hm), hasc₁⟩,
    ⟨hall.2, fun m hm => hpos m (List.mem_append_right _ hm), hasc₂⟩⟩

theorem mem_named_of_placed {x : String × Int} (h : x ∈ placed tr) : x.2 ∈ named tr := by
  obtain ⟨⟨c, r⟩, hmem, hx⟩ := List.mem_flatMap.mp h
  refine List.mem_flatMap.mpr ⟨⟨c, r⟩, hmem, ?_⟩
  cases c with
  | send c replyTo => exact (List.of_mem_zip hx).2
  | _ => cases hx

/-! ## runs that are answered -/

variable {α β : Type}

/-- Where the calls are answered, the script ends with a result that satisfies `Q`. -/
def Answers (x : SendScript α) (Q : List (Asked Call.Outcome) → α → Prop) : Prop :=
  x.wp fun tr res => Usable tr → ∃ a, res = .ok a ∧ Q tr a

theorem answers_pure {a : α} {Q : List (Asked Call.Outcome) → α → Prop} (h : Q [] a) :
    Answers (pure a) Q := fun _ => ⟨a, rfl, h⟩

theorem Answers.bind {x : SendScript α} {f : α → SendScript β}
    {P : List (Asked Call.Outcome) → α → Prop} {Q : List (Asked Call.Outcome) → β → Prop}
    (hx : Answers x P)
    (hf : ∀ tr a, Usable tr → P tr a → Answers (f a) fun tr' b => Q (tr ++ tr') b) :
    Answers (x >>= f) Q := by
  refine (wp_bind x f).mpr (wp_mono (fun tr res h => ?_) hx)
  cases res with
  | error e =>
      intro hu
      obtain ⟨a, ha, -⟩ := h hu
      cases ha
  | ok a =>
      by_cases hu : Usable tr
      · obtain ⟨a', ha, hP⟩ := h hu
        obtain rfl := Except.ok.inj ha
        exact wp_mono (fun tr' res' h' hu' => h' hu'.append.2) (hf tr a hu hP)
      · exact wp_iff.mpr fun tr' res' _ hu' => absurd hu'.append.1 hu

theorem Answers.mono {x : SendScript α} {P Q : List (Asked Call.Outcome) → α → Prop}
    (h : Answers x P) (himp : ∀ tr a, Usable tr → P tr a → Q tr a) : Answers x Q :=
  wp_mono (fun tr _ hx hu => (hx hu).imp fun a ha => ⟨ha.1, himp tr a hu ha.2⟩) h

theorem answers_ask {c : Call} {f : c.Outcome → SendScript α}
    {Q : List (Asked Call.Outcome) → α → Prop}
    (hf : ∀ r, Usable [⟨c, r⟩] → Answers (f r) fun tr a => Q (⟨c, r⟩ :: tr) a) :
    Answers (ask c >>= f) Q := by
  change ∀ r, (f r).wp fun tr res => Usable ([⟨c, r⟩] ++ tr) → ∃ a, res = .ok a ∧ Q (⟨c, r⟩ :: tr) a
  intro r
  by_cases hu : Usable [⟨c, r⟩]
  · exact wp_mono (fun tr res h hu' => h hu'.append.2) (hf r hu)
  · exact wp_iff.mpr fun tr res _ hu' => absurd hu'.append.1 hu

/-- What neither fetches nor settles. -/
def Silent (tr : List (Asked Call.Outcome)) : Prop := fetches tr = [] ∧ settlements tr = []

theorem silent_nil : Silent [] := ⟨rfl, rfl⟩

theorem Silent.append (h : Silent tr) (h' : Silent tr') : Silent (tr ++ tr') :=
  ⟨by rw [fetches_append, h.1, h'.1]; rfl, by rw [settlements_append, h.2, h'.2]; rfl⟩

/-- An answer that names one message. -/
theorem usable_single {c : Content} {replyTo : Option Int} {r : Except RemoteFault c.Reply}
    (h : Usable [⟨.send c replyTo, r⟩]) : fullyNamed c r = true ∧ (∀ m ∈ namedBy c r, 0 < m) ∧
      (namedBy c r).Pairwise (· < ·) := by
  have hnamed : named [⟨.send c replyTo, r⟩] = namedBy c r := List.append_nil _
  obtain ⟨hall, hpos, hasc⟩ := h
  rw [hnamed] at hpos hasc
  exact ⟨by simpa [wellAnswered] using hall, hpos, hasc⟩

theorem idsOf_ne_nil {r : Except RemoteFault (Option Int)} (h : (!(idsOf r).isEmpty) = true)
    (hpos : ∀ m ∈ idsOf r, 0 < m) : ∃ m, r = .ok (some m) ∧ 0 < m := by
  rcases r with f | _ | m
  · cases h
  · cases h
  · exact ⟨m, rfl, hpos m List.mem_cons_self⟩

/-- A call that is not a creating one names nothing. -/
structure Quiet (tr : List (Asked Call.Outcome)) : Prop where
  silent : Silent tr
  named : named tr = []

/-! ## the senders -/

/-- What the two senders do where every call is answered. -/
structure TelegramMediaSender.Answers (s : TelegramMediaSender) : Prop where
  sendFile : ∀ form m replyTo, Media.Answers (s.sendFile form m replyTo) fun tr message =>
    Silent tr ∧ (m.path, message) ∈ placed tr
  sendAlbum : ∀ items replyTo, Media.Answers (s.sendAlbum items replyTo) fun tr receipt =>
    Silent tr ∧ receipt.messageIds = named tr ∧ receipt.messageIds.length = items.length ∧
      ∀ x ∈ (items.map (·.path)).zip receipt.messageIds, x ∈ placed tr
  sendText : ∀ text replyTo entities buttons,
    Media.Answers (s.sendText text replyTo entities buttons) fun tr _ => Silent tr
  sendContact : ∀ phone firstName lastName vcard replyTo,
    Media.Answers (s.sendContact phone firstName lastName vcard replyTo) fun tr _ => Silent tr
  sendPhotoUrl : ∀ url caption replyTo buttons,
    Media.Answers (s.sendPhotoUrl url caption replyTo buttons) fun tr _ => Silent tr

/-- Ids that ascend from above zero keep the contract of an album. -/
theorem albumReceiptError_eq_none {ids : List Int} (hpos : ∀ m ∈ ids, 0 < m)
    (hasc : ids.Pairwise (· < ·)) : albumReceiptError ids ids.length = none := by
  have hnodup : ids.Nodup := hasc.imp Int.ne_of_lt
  have hany : ids.any (· ≤ 0) = false := by
    rw [List.any_eq_false]
    intro m hm
    simpa using hpos m hm
  simp only [albumReceiptError, hnodup.dedup, hany, ne_eq, not_true_eq_false, if_false,
    List.isChain_iff_pairwise.mpr hasc, Bool.false_eq_true]

theorem answers_checkAlbumReceipt {ids : List Int} {n : Nat} (hlen : ids.length = n)
    (hpos : ∀ m ∈ ids, 0 < m) (hasc : ids.Pairwise (· < ·)) :
    Media.Answers (checkAlbumReceipt ids n) fun tr _ => tr = [] := by
  subst hlen
  unfold checkAlbumReceipt
  rw [albumReceiptError_eq_none hpos hasc]
  exact answers_pure rfl

/-- Where every message has an id, none is lost. -/
theorem map_some_filterMap_id {raws : List (Option Int)} (h : raws.all (·.isSome) = true) :
    raws = (raws.filterMap id).map some := by
  induction raws with
  | nil => rfl
  | cons raw raws ih =>
      rw [List.all_cons, Bool.and_eq_true] at h
      obtain ⟨m, rfl⟩ := Option.isSome_iff_exists.mp h.1
      change some m :: raws = some m :: (raws.filterMap id).map some
      rw [← ih h.2]

namespace RegistryMediaSender

variable (botId : Int)

theorem answers_bot : Media.Answers (bot botId) fun tr _ => Quiet tr ∧ placed tr = [] := by
  refine answers_ask fun live hu => ?_
  cases live with
  | true => exact answers_pure ⟨⟨silent_nil, rfl⟩, rfl⟩
  | false => exact absurd hu.answered (by simp [wellAnswered])

theorem answers_idOf {m : Int} (h : 0 < m) :
    Media.Answers (idOf (some m)) fun tr a => tr = [] ∧ a = m := by
  unfold idOf
  dsimp only
  rw [if_neg (by omega)]
  exact answers_pure ⟨rfl, rfl⟩

/-- A method that makes one message of one content. -/
theorem answers_single {c : Content} {replyTo : Option Int}
    {f : Except RemoteFault c.Reply → SendScript α} {Q : List (Asked Call.Outcome) → α → Prop}
    (hf : ∀ r, Usable [⟨.send c replyTo, r⟩] →
      Media.Answers (f r) fun tr a => ∀ before, Quiet before → placed before = [] →
        Q (before ++ ⟨.send c replyTo, r⟩ :: tr) a) :
    Media.Answers (do
      bot botId
      let r ← ask (.send c replyTo)
      f r) Q :=
  (answers_bot botId).bind fun before _ _ hbefore => answers_ask fun r hu =>
    (hf r hu).mono fun _ _ _ h => h before hbefore.1 hbefore.2

theorem answers_inForm {form : Form} {m : OutgoingMedia} {replyTo : Option Int}
    {accepted : Int → SendScript Int} {fallback : SendScript Int}
    (hacc : ∀ message, Media.Answers (accepted message) fun tr a => a = message ∧ Silent tr) :
    Media.Answers (inForm botId form m replyTo accepted fallback) fun tr message =>
      Silent tr ∧ (m.path, message) ∈ placed tr := by
  refine answers_single (c := .file form m) botId fun r hu => ?_
  obtain ⟨hnamed, hpos, -⟩ := usable_single hu
  obtain ⟨message, rfl, hm⟩ := idsOf_ne_nil hnamed hpos
  refine (answers_idOf hm).bind fun tr a _ h => ?_
  obtain ⟨rfl, rfl⟩ := h
  refine (hacc a).mono fun tr' b _ h' before hquiet hplaced => ?_
  obtain ⟨rfl, hsilent⟩ := h'
  refine ⟨hquiet.silent.append ⟨hsilent.1, hsilent.2⟩, ?_⟩
  rw [placed_append, hplaced]
  exact List.mem_cons_self

/-- A method that makes one message, named by the answer. -/
theorem answers_answered {c : Content} {replyTo : Option Int}
    (f : Except RemoteFault c.Reply → Except RemoteFault (Option Int))
    (hf : ∀ r, fullyNamed c r = true → (∀ m ∈ namedBy c r, 0 < m) →
      ∃ m, f r = .ok (some m) ∧ 0 < m ∧ namedBy c r = [m]) :
    Media.Answers (do
      bot botId
      let r ← ask (.send c replyTo)
      answered (f r)) fun tr message =>
        Silent tr ∧ named tr = [message] ∧ placed tr = c.paths.zip [message] := by
  refine answers_single botId fun r hu => ?_
  obtain ⟨hfull, hpos, -⟩ := usable_single hu
  obtain ⟨m, hok, hm, hnamed⟩ := hf r hfull hpos
  rw [hok]
  refine (answers_idOf hm).mono fun tr a _ h before hquiet hplaced => ?_
  obtain ⟨rfl, rfl⟩ := h
  refine ⟨hquiet.silent.append silent_nil, ?_, ?_⟩
  · rw [named_append, hquiet.named]
    exact (List.append_nil _).trans hnamed
  · rw [placed_append, hplaced]
    exact (List.append_nil (c.paths.zip (namedBy c r))).trans (congrArg _ hnamed)

/-- The same for a content that is one message. -/
theorem named_one {r : Except RemoteFault (Option Int)} (h : (!(idsOf r).isEmpty) = true)
    (hpos : ∀ m ∈ idsOf r, 0 < m) : ∃ m, id r = .ok (some m) ∧ 0 < m ∧ idsOf r = [m] := by
  obtain ⟨m, rfl, hm⟩ := idsOf_ne_nil h hpos
  exact ⟨m, rfl, hm, rfl⟩

theorem answers_document (m : OutgoingMedia) (replyTo : Option Int) :
    Media.Answers (document botId m replyTo) fun tr message =>
      Silent tr ∧ named tr = [message] ∧ placed tr = [m.path].zip [message] :=
  answers_answered (c := .file .document m) botId id fun _ => named_one

theorem answers_sendText (text : String) (replyTo : Option Int) (entities : Entities)
    (buttons : Buttons) :
    Media.Answers (sendText botId text replyTo entities buttons) fun tr message =>
      Silent tr ∧ named tr = [message] ∧ placed tr = [].zip [message] :=
  answers_answered (c := .message text entities buttons) botId id fun _ => named_one

theorem answers_sendFile (form : Form) (m : OutgoingMedia) (replyTo : Option Int) :
    Media.Answers (sendFile botId form m replyTo) fun tr message =>
      Silent tr ∧ (m.path, message) ∈ placed tr := by
  have hpure : ∀ message, Media.Answers (pure message) fun tr (a : Int) => a = message ∧ Silent tr :=
    fun message => answers_pure ⟨rfl, silent_nil⟩
  cases form with
  | document =>
      refine (answers_document botId m replyTo).mono fun tr message _ h => ⟨h.1, ?_⟩
      rw [h.2.2]
      exact List.mem_cons_self
  | videoNote =>
      refine answers_inForm botId fun message => ?_
      split
      · exact hpure message
      · exact (answers_sendText botId _ _ _ _).bind fun tr _ _ h =>
          answers_pure ⟨rfl, h.1.append silent_nil⟩
  | photo | video | voice | audio | sticker => exact answers_inForm botId hpure

theorem answers_mapM_idOf {ids : List Int} (hpos : ∀ m ∈ ids, 0 < m) :
    Media.Answers ((ids.map some).mapM' idOf) fun tr a => tr = [] ∧ a = ids := by
  induction ids with
  | nil => exact answers_pure ⟨rfl, rfl⟩
  | cons m ids ih =>
      refine (answers_idOf (hpos m List.mem_cons_self)).bind fun tr a _ h => ?_
      refine (ih fun m hm => hpos m (List.mem_cons_of_mem _ hm)).bind fun tr' as _ h' => ?_
      obtain ⟨rfl, rfl⟩ := h
      obtain ⟨rfl, rfl⟩ := h'
      exact answers_pure ⟨rfl, rfl⟩

theorem answers_sendAlbum (items : List OutgoingMedia) (replyTo : Option Int) :
    Media.Answers (sendAlbum botId items replyTo) fun tr receipt =>
      Silent tr ∧ receipt.messageIds = named tr ∧ receipt.messageIds.length = items.length ∧
        ∀ x ∈ (items.map (·.path)).zip receipt.messageIds, x ∈ placed tr := by
  refine answers_single (c := .group items) botId fun r hu => ?_
  obtain ⟨hfull, hpos, hasc⟩ := usable_single hu
  rcases r with f | ⟨raws, group⟩
  · cases hfull
  · have hall : raws.all (·.isSome) = true ∧ raws.length = items.length := by
      simpa [fullyNamed] using hfull
    obtain ⟨ids, rfl⟩ : ∃ ids : List Int, raws = ids.map some := ⟨_, map_some_filterMap_id hall.1⟩
    have hnamed : namedBy (.group items) (.ok ⟨ids.map some, group⟩) = ids := by
      simp [namedBy, List.filterMap_map]
    have hlen : ids.length = items.length := by simpa using hall.2
    rw [hnamed] at hpos hasc
    refine (answers_mapM_idOf hpos).bind fun tr ids' _ h => ?_
    obtain ⟨rfl, rfl⟩ := h
    refine (answers_checkAlbumReceipt hlen hpos hasc).bind
      fun tr' _ _ h' => answers_pure fun before hquiet hplaced => ?_
    subst h'
    refine ⟨hquiet.silent.append silent_nil, ?_, hlen, ?_⟩
    · rw [named_append, hquiet.named]
      exact hnamed.symm.trans (List.append_nil _).symm
    · intro x hx
      rw [placed_append, hplaced]
      refine List.mem_append_right _ (List.mem_append_left _ ?_)
      change x ∈ (items.map (·.path)).zip (namedBy _ _)
      rwa [hnamed]

end RegistryMediaSender

theorem answers_registryMediaSender (botId : Int) : (registryMediaSender botId).Answers where
  sendFile := RegistryMediaSender.answers_sendFile botId
  sendAlbum := RegistryMediaSender.answers_sendAlbum botId
  sendText text replyTo entities buttons :=
    (RegistryMediaSender.answers_sendText botId text replyTo entities buttons).mono
      fun _ _ _ h => h.1
  sendContact phone firstName lastName vcard replyTo :=
    (RegistryMediaSender.answers_answered (c := .contact phone firstName lastName vcard) botId id
      fun _ => RegistryMediaSender.named_one).mono fun _ _ _ h => h.1
  sendPhotoUrl url caption replyTo buttons := by
    refine RegistryMediaSender.answers_single (c := .photoUrl url caption buttons) botId
      fun r hu => ?_
    obtain ⟨hnamed, hpos, -⟩ := usable_single hu
    obtain ⟨message, rfl, hm⟩ := idsOf_ne_nil hnamed hpos
    refine Answers.bind (RegistryMediaSender.answers_idOf hm) fun tr a _ h =>
      answers_pure fun before hquiet _ => ?_
    obtain ⟨rfl, rfl⟩ := h
    exact hquiet.silent.append silent_nil

namespace MtprotoOwnerSender

theorem answers_require : Media.Answers require fun tr _ => Quiet tr ∧ placed tr = [] := by
  refine answers_ask fun there hu => ?_
  cases there with
  | true => exact answers_pure ⟨⟨silent_nil, rfl⟩, rfl⟩
  | false => exact absurd hu.answered (by simp [wellAnswered])

/-- A method that makes one message, named by the session. -/
theorem answers_named {c : Content} (text : String)
    (f : Except RemoteFault c.Reply → Except RemoteFault (Option Int))
    (hf : ∀ r, fullyNamed c r = true → (∀ m ∈ namedBy c r, 0 < m) →
      ∃ m, f r = .ok (some m) ∧ 0 < m ∧ namedBy c r = [m]) :
    Media.Answers (do
      require
      let r ← ask (.send c none)
      MtprotoOwnerSender.named text (f r)) fun tr message =>
        Silent tr ∧ Media.named tr = [message] ∧ placed tr = c.paths.zip [message] := by
  refine answers_require.bind fun before _ _ h => answers_ask fun r hu => ?_
  obtain ⟨hquiet, hplaced⟩ := h
  obtain ⟨hfull, hpos, -⟩ := usable_single hu
  obtain ⟨m, hok, hm, hnamed⟩ := hf r hfull hpos
  rw [hok]
  refine answers_pure ⟨hquiet.silent.append silent_nil, ?_, ?_⟩
  · rw [named_append, hquiet.named]
    exact (List.append_nil _).trans hnamed
  · rw [placed_append, hplaced]
    exact (List.append_nil (c.paths.zip (namedBy c r))).trans (congrArg _ hnamed)

theorem answers_place (form : Form) (m : OutgoingMedia) :
    Media.Answers (place form m) fun tr message =>
      Silent tr ∧ Media.named tr = [message] ∧ placed tr = [m.path].zip [message] :=
  answers_named (c := .ownFile form m) _ id fun _ => RegistryMediaSender.named_one

theorem answers_placeFrom (total index : Nat) (items : List OutgoingMedia) :
    Media.Answers (placeFrom total index items) fun tr ids =>
      Silent tr ∧ ids = Media.named tr ∧ ids.length = items.length ∧
        placed tr = (items.map (·.path)).zip ids := by
  induction items generalizing index with
  | nil => exact answers_pure ⟨silent_nil, rfl, rfl, rfl⟩
  | cons item rest ih =>
      have hpath : (if index = 0 then item else uncaptioned item).path = item.path := by
        split <;> rfl
      have hplace := answers_place (if item.kind = .video then .video else .photo)
        (if index = 0 then item else uncaptioned item)
      rw [hpath] at hplace
      refine Answers.bind (P := fun tr message =>
        Silent tr ∧ Media.named tr = [message] ∧ placed tr = [item.path].zip [message]) ?_
        fun tr message _ h => ?_
      · refine wp_tryCatch_of hplace (fun _ _ h => h) fun tr e h => wp_iff.mpr ?_
        intro tr' res' _ hu
        obtain ⟨a, ha, -⟩ := h hu.append.1
        cases ha
      · refine (ih (index + 1)).bind fun tr' messages _ h' => answers_pure ?_
        obtain ⟨hsilent, hnamed, hplaced⟩ := h
        obtain ⟨hsilent', rfl, hlen, hplaced'⟩ := h'
        refine ⟨hsilent.append (hsilent'.append silent_nil), ?_, ?_, ?_⟩
        · rw [named_append, named_append, hnamed]
          exact congrArg _ (List.append_nil _).symm
        · rw [List.length_cons, hlen, List.length_cons]
        · rw [placed_append, placed_append, hplaced, hplaced']
          exact congrArg _ (List.append_nil _)

theorem answers_sendAlbum (items : List OutgoingMedia) (replyTo : Option Int) :
    Media.Answers (sendAlbum items replyTo) fun tr receipt =>
      Silent tr ∧ receipt.messageIds = Media.named tr ∧
        receipt.messageIds.length = items.length ∧
        ∀ x ∈ (items.map (·.path)).zip receipt.messageIds, x ∈ placed tr := by
  unfold sendAlbum
  split
  · refine answers_require.bind fun before _ _ h => answers_ask fun r hu => ?_
    obtain ⟨hquiet, hplaced⟩ := h
    obtain ⟨hfull, hpos, hasc⟩ := usable_single hu
    rcases r with f | raws
    · cases hfull
    · have hall : raws.all (·.isSome) = true ∧ raws.length = items.length := by
        simpa [fullyNamed] using hfull
      obtain ⟨ids, rfl⟩ : ∃ ids : List Int, raws = ids.map some := ⟨_, map_some_filterMap_id hall.1⟩
      have hids : (ids.map some).filterMap id = ids := by simp [List.filterMap_map]
      have hlen : ids.length = items.length := by simpa using hall.2
      replace hpos : ∀ m ∈ ids, 0 < m := hids ▸ hpos
      replace hasc : ids.Pairwise (· < ·) := hids ▸ hasc
      dsimp only
      rw [hids, if_neg (by simp [hlen])]
      refine (answers_checkAlbumReceipt hlen hpos hasc).bind fun tr _ _ h => answers_pure ?_
      subst h
      refine ⟨hquiet.silent.append silent_nil, ?_, hlen, ?_⟩
      · rw [named_append, hquiet.named]
        exact hids.symm.trans (List.append_nil _).symm
      · intro x hx
        rw [placed_append, hplaced]
        refine List.mem_append_right _ (List.mem_append_left _ ?_)
        change x ∈ (items.map (·.path)).zip ((ids.map some).filterMap id)
        rwa [hids]
  · refine (answers_placeFrom items.length 0 items).bind fun tr ids hu h => ?_
    obtain ⟨hsilent, rfl, hlen, hplaced⟩ := h
    refine (answers_checkAlbumReceipt hlen hu.positive hu.ascending).bind fun tr' _ _ h =>
      answers_pure ?_
    subst h
    rw [List.append_nil, List.append_nil]
    exact ⟨hsilent, rfl, hlen, fun x hx => hplaced ▸ hx⟩

theorem answers_sendText (text : String) (replyTo : Option Int) (entities : Entities)
    (buttons : Buttons) :
    Media.Answers (sendText text replyTo entities buttons) fun tr _ => Silent tr :=
  (answers_named (c := .ownMessage text entities) _ id
    fun _ => RegistryMediaSender.named_one).mono fun _ _ _ h => h.1

end MtprotoOwnerSender

theorem answers_mtprotoOwnerSender : mtprotoOwnerSender.Answers where
  sendFile form m _ :=
    (MtprotoOwnerSender.answers_place _ m).mono fun _ _ _ h => ⟨h.1, by rw [h.2.2]; exact List.mem_cons_self⟩
  sendAlbum := MtprotoOwnerSender.answers_sendAlbum
  sendText := MtprotoOwnerSender.answers_sendText
  sendContact _ _ _ _ replyTo := MtprotoOwnerSender.answers_sendText _ replyTo none none
  sendPhotoUrl _ _ _ _ := answers_pure silent_nil

/-! ## a delivery -/

/-- The same for a delivery, whether it has announced itself or not. -/
def Delivered (x : Delivering α) (Q : List (Asked Call.Outcome) → α → Prop) : Prop :=
  ∀ before, Answers (x.run before) fun tr p => Q tr p.1

theorem delivered_pure {a : α} {Q : List (Asked Call.Outcome) → α → Prop} (h : Q [] a) :
    Delivered (pure a) Q := fun _ => answers_pure h

theorem Delivered.bind {x : Delivering α} {f : α → Delivering β}
    {P : List (Asked Call.Outcome) → α → Prop} {Q : List (Asked Call.Outcome) → β → Prop}
    (hx : Delivered x P)
    (hf : ∀ tr a, Usable tr → P tr a → Delivered (f a) fun tr' b => Q (tr ++ tr') b) :
    Delivered (x >>= f) Q :=
  fun before => Answers.bind (hx before) fun tr p hu h => hf tr p.1 hu h p.2

theorem Delivered.mono {x : Delivering α} {P Q : List (Asked Call.Outcome) → α → Prop}
    (h : Delivered x P) (himp : ∀ tr a, Usable tr → P tr a → Q tr a) : Delivered x Q :=
  fun before => (h before).mono fun tr p hu hp => himp tr p.1 hu hp

theorem delivered_lift {x : SendScript α} {Q : List (Asked Call.Outcome) → α → Prop}
    (h : Answers x Q) : Delivered (liftM x : Delivering α) Q :=
  fun _ => Answers.bind h fun tr a _ hq => answers_pure (by rwa [List.append_nil])

/-- Announcing itself changes nothing that is read off a run. -/
theorem delivered_announcing {x : SendScript α} {Q : List (Asked Call.Outcome) → α → Prop}
    (h : Answers x Q) (hmark : ∀ tr a r, Q tr a → Q (⟨.sending, r⟩ :: tr) a) :
    Delivered (announcing x) Q := by
  intro before
  cases before with
  | true => exact Answers.bind h fun tr a _ hq => answers_pure (by rwa [List.append_nil])
  | false =>
      refine answers_ask fun r hu => ?_
      rcases r with f | ⟨⟩
      · exact absurd hu.answered (by simp [wellAnswered, Except.toBool])
      · exact Answers.bind h fun tr a _ hq => answers_pure (hmark _ _ _ (by rwa [List.append_nil]))

/-- A file is there or it is not. -/
def isFile : Except FetchError LocalFile → Bool
  | .ok _ => true
  | .error _ => false

/-- The files that came, in order. -/
def survivors (fetched : List (Except FetchError LocalFile)) : List String :=
  fetched.filterMap fun
    | .ok file => some file.path
    | .error _ => none

@[simp] theorem survivors_append (l l' : List (Except FetchError LocalFile)) :
    survivors (l ++ l') = survivors l ++ survivors l' := List.filterMap_append

theorem answers_cover (a : MaxAttachment) (file : LocalFile) :
    Answers (cover a file) fun tr _ => Silent tr := by
  unfold cover
  split
  case h_1 | h_2 =>
    refine answers_ask fun r hu => ?_
    rcases r with f | thumbnail
    · exact absurd hu.answered (by simp [wellAnswered, Except.toBool])
    · exact answers_pure silent_nil
  case h_3 => exact answers_pure silent_nil

theorem answers_fetch (a : MaxAttachment) :
    Answers (ask (.fetch a)) fun tr r =>
      tr = [⟨.fetch a, r⟩] ∧ wellAnswered ⟨.fetch a, r⟩ = true := by
  change ∀ r, Usable [⟨.fetch a, r⟩] → _
  exact fun r hu => ⟨r, rfl, rfl, by simpa using hu.answered⟩

/-- What an album has become, for the attachments it was to carry. -/
structure AlbumSent (n : Nat) (tr : List (Asked Call.Outcome)) (album : List DeliveredPart) :
    Prop where
  unsettled : settlements tr = []
  fetched : (fetches tr).length = n
  length : album.length = (survivors (fetches tr)).length
  indexes : (albumParts album).map (·.1) = (List.range album.length).map Int.ofNat
  positive : ∀ m ∈ (albumParts album).map (·.2), 0 < m
  ascending : ((albumParts album).map (·.2)).Pairwise (· < ·)
  /-- The parts carry the files that came, in their order. -/
  carried : ∀ x ∈ (survivors (fetches tr)).zip ((albumParts album).map (·.2)), x ∈ placed tr

theorem AlbumSent.covering {n : Nat} {album : List DeliveredPart} (h : AlbumSent n tr album)
    (hne : album ≠ []) : Covering (albumParts album) where
  nonempty := by simpa [albumParts] using hne
  indexes := by
    have hlen : (albumParts album).length = album.length := List.length_map _
    rw [hlen, h.indexes]
  positive := h.positive
  ascending := h.ascending

theorem albumParts_partsOf_ids {ids : List Int} {items : List OutgoingMedia}
    (hlen : ids.length = items.length) :
    (albumParts (MaxMediaDelivery.partsOf ids items)).map (·.2) = ids := by
  have hfst : (ids.zip items).zipIdx.map (fun x => x.1.1) = (ids.zip items).map (·.1) := by
    have hmap := List.map_map (l := (ids.zip items).zipIdx) (g := Prod.fst) (f := Prod.fst)
    rw [List.zipIdx_map_fst] at hmap
    exact hmap.symm
  simp only [albumParts, MaxMediaDelivery.partsOf, List.map_map, Function.comp_def]
  rw [hfst, List.map_fst_zip (Nat.le_of_eq hlen)]

theorem length_partsOf {ids : List Int} {items : List OutgoingMedia}
    (hlen : ids.length = items.length) :
    (MaxMediaDelivery.partsOf ids items).length = items.length := by
  simp [MaxMediaDelivery.partsOf, hlen]

theorem albumParts_partsOf_indexes (ids : List Int) (items : List OutgoingMedia) :
    (albumParts (MaxMediaDelivery.partsOf ids items)).map (·.1) =
      (List.range (MaxMediaDelivery.partsOf ids items).length).map Int.ofNat := by
  have hsnd : (ids.zip items).zipIdx.map (fun x => Int.ofNat x.2) =
      (List.range (ids.zip items).length).map Int.ofNat := by
    have hmap := List.map_map (l := (ids.zip items).zipIdx) (g := Int.ofNat) (f := Prod.snd)
    rw [List.zipIdx_map_snd, ← List.range_eq_range'] at hmap
    exact hmap.symm
  simpa [albumParts, MaxMediaDelivery.partsOf, Function.comp_def] using hsnd

namespace MaxMediaDelivery

variable {d : MaxMediaDelivery}

theorem answers_noteStickerOrigin (a : MaxAttachment) (file : LocalFile) :
    Answers (d.noteStickerOrigin a file) fun tr _ => Silent tr := by
  unfold noteStickerOrigin
  split
  · exact answers_pure silent_nil
  · refine answers_ask fun r hu => ?_
    rcases r with (_ | _) | _
    · exact absurd hu.answered (by simp [wellAnswered, notCancelled])
    · exact answers_pure silent_nil
    · exact answers_pure silent_nil

section

variable (hs : d.sender.Answers)
include hs

theorem delivered_sendText (text : String) (replyTo : Option Int) (entities : Entities)
    (buttons : Buttons) :
    Delivered (announcing (d.sender.sendText text replyTo entities buttons)) fun tr _ => Silent tr :=
  delivered_announcing (hs.sendText text replyTo entities buttons) fun _ _ _ h => h

theorem delivered_dispatch (m : OutgoingMedia) (replyTo : Option Int) :
    Delivered (d.dispatch m replyTo) fun tr message =>
      Silent tr ∧ (m.path, message) ∈ placed tr := by
  refine Delivered.bind (delivered_announcing (hs.sendFile _ m replyTo) fun _ _ _ h => h)
    fun tr message _ h => ?_
  split
  · exact delivered_pure (by rwa [List.append_nil])
  · refine Delivered.bind (delivered_sendText hs _ _ _ _) fun tr' _ _ h' => delivered_pure ?_
    rw [List.append_nil]
    exact ⟨h.1.append h', by rw [placed_append]; exact List.mem_append_left _ h.2⟩

/-- The loop fetches every attachment and keeps the files that came. -/
theorem delivered_gather (caption : Option String) (entities : Entities) (replyTo : Option Int)
    {attachments : List MaxAttachment} (halbum : ∀ a ∈ attachments, a.kind.isAlbum = true)
    (items : List OutgoingMedia) :
    Delivered (d.gather caption entities replyTo attachments items) fun tr items' =>
      settlements tr = [] ∧ (fetches tr).length = attachments.length ∧
        items'.map (·.path) = items.map (·.path) ++ survivors (fetches tr) := by
  induction attachments generalizing items with
  | nil => exact delivered_pure ⟨rfl, rfl, (List.append_nil _).symm⟩
  | cons a rest ih =>
      have hrest : ∀ a ∈ rest, a.kind.isAlbum = true :=
        fun a ha => halbum a (List.mem_cons_of_mem _ ha)
      refine Delivered.bind (delivered_lift (answers_fetch a)) fun tr r _ h => ?_
      obtain ⟨rfl, hwell⟩ := h
      have hone : fetches [⟨.fetch a, r⟩] = [r] := rfl
      rcases r with (limit | ⟨code, text⟩ | f) | file
      · refine Delivered.bind (delivered_sendText hs _ _ _ _) fun tr' _ _ h' => ?_
        refine Delivered.mono (ih hrest items) fun tr'' items' _ h'' => ?_
        obtain ⟨hset, hlen, hpaths⟩ := h''
        rw [settlements_append, settlements_append, fetches_append, fetches_append, h'.1, h'.2, hone]
        exact ⟨hset, congrArg Nat.succ hlen, hpaths⟩
      · simp [wellAnswered, halbum a List.mem_cons_self] at hwell
      · cases hwell
      · refine Delivered.bind (delivered_lift (answers_cover a file)) fun tr' _ _ h' => ?_
        refine Delivered.mono (ih hrest _) fun tr'' items' _ h'' => ?_
        obtain ⟨hset, hlen, hpaths⟩ := h''
        rw [settlements_append, settlements_append, fetches_append, fetches_append, h'.1, h'.2, hone]
        refine ⟨hset, congrArg Nat.succ hlen, hpaths.trans ?_⟩
        rw [List.map_append, List.append_assoc]
        rfl

theorem delivered_sendAlbum {attachments : List MaxAttachment} (caption : Option String)
    (entities : Entities) (replyTo : Option Int)
    (halbum : ∀ a ∈ attachments, a.kind.isAlbum = true) :
    Delivered (d.sendAlbum attachments caption entities replyTo) fun tr out =>
      AlbumSent attachments.length tr out.1 := by
  refine Delivered.bind (delivered_gather hs caption entities replyTo halbum [])
    fun tr items _ h => ?_
  obtain ⟨hset, hfetched, hpaths⟩ := h
  rw [List.map_nil, List.nil_append] at hpaths
  split
  · refine delivered_pure ?_
    rw [List.append_nil]
    refine ⟨hset, hfetched, by rw [← hpaths]; rfl, rfl, fun m hm => ?_, .nil, fun x hx => ?_⟩
    · cases hm
    · simp [albumParts] at hx
  · next item =>
      refine Delivered.bind (delivered_dispatch hs item replyTo) fun tr' message hu h' =>
        delivered_pure ?_
      obtain ⟨hsilent, hplaced⟩ := h'
      rw [List.append_nil]
      refine ⟨?_, ?_, ?_, rfl, ?_, List.pairwise_singleton _ _, ?_⟩
      · rw [settlements_append, hset, hsilent.2]
        rfl
      · rw [fetches_append, hsilent.1, List.append_nil, hfetched]
      · rw [fetches_append, hsilent.1, List.append_nil, ← hpaths]
        rfl
      · intro m hm
        obtain rfl := List.mem_singleton.mp hm
        exact hu.positive _ (mem_named_of_placed hplaced)
      · intro x hx
        rw [fetches_append, hsilent.1, List.append_nil, ← hpaths] at hx
        obtain rfl := List.mem_singleton.mp hx
        rw [placed_append]
        exact List.mem_append_right _ hplaced
  · refine Delivered.bind (delivered_announcing (hs.sendAlbum items replyTo) fun _ _ _ h => h)
      fun tr' receipt hu h' => ?_
    obtain ⟨hsilent, hnamed, hlen, hplaced⟩ := h'
    rw [if_neg (not_not.mpr hlen)]
    refine delivered_pure ?_
    rw [List.append_nil]
    refine ⟨?_, ?_, ?_, albumParts_partsOf_indexes _ _, ?_, ?_, ?_⟩
    · rw [settlements_append, hset, hsilent.2]
      rfl
    · rw [fetches_append, hsilent.1, List.append_nil, hfetched]
    · rw [length_partsOf hlen, fetches_append, hsilent.1, List.append_nil, ← hpaths,
        List.length_map]
    · rw [albumParts_partsOf_ids hlen, hnamed]
      exact hu.positive
    · rw [albumParts_partsOf_ids hlen, hnamed]
      exact hu.ascending
    · rw [albumParts_partsOf_ids hlen, fetches_append, hsilent.1, List.append_nil, ← hpaths,
        placed_append]
      exact fun x hx => List.mem_append_right _ (hplaced x hx)

theorem delivered_sendContact (a : MaxAttachment) (caption : Option String) (entities : Entities)
    (replyTo : Option Int) :
    Delivered (d.sendContact a caption entities replyTo) fun tr _ => Silent tr := by
  unfold sendContact
  split
  · exact delivered_announcing (hs.sendContact _ _ _ _ _) fun _ _ _ h => h
  · dsimp only
    split
    · refine Delivered.bind (delivered_announcing (hs.sendPhotoUrl _ _ _ _) fun _ _ _ h => h)
        fun tr shown _ h => ?_
      cases shown with
      | some message => exact delivered_pure (h.append silent_nil)
      | none => exact (delivered_sendText hs _ _ _ _).mono fun _ _ _ h' => h.append h'
    · exact delivered_sendText hs _ _ _ _

theorem delivered_sendFile {a : MaxAttachment} (ha : a.kind.isAlbum = false)
    (caption : Option String) (entities : Entities) (replyTo : Option Int) :
    Delivered (d.sendFile a caption entities replyTo) fun tr _ => settlements tr = [] := by
  refine Delivered.bind (delivered_lift (answers_fetch a)) fun tr r _ h => ?_
  obtain ⟨rfl, hwell⟩ := h
  rcases r with (limit | ⟨code, text⟩ | f) | file
  · exact (delivered_sendText hs _ _ _ _).mono fun _ _ _ h => h.2
  · have hcode : code = "source_missing" := by simpa [wellAnswered, ha] using hwell
    dsimp only
    rw [if_pos hcode]
    exact (delivered_sendText hs _ _ _ _).mono fun _ _ _ h => h.2
  · cases hwell
  · refine Delivered.bind (delivered_lift (answers_cover a file)) fun tr₁ _ _ h₁ => ?_
    refine Delivered.bind (delivered_dispatch hs _ replyTo) fun tr₂ sent _ h₂ => ?_
    refine Delivered.bind (delivered_lift (answers_noteStickerOrigin a file)) fun tr₃ _ _ h₃ =>
      delivered_pure ?_
    exact (h₁.append (h₂.1.append (h₃.append silent_nil))).2

theorem delivered_sendOne {a : MaxAttachment} (ha : a.kind.isAlbum = false) (isOutgoing : Bool)
    (caption : Option String) (entities : Entities) (replyTo : Option Int) :
    Delivered (d.sendOne isOutgoing a caption entities replyTo) fun tr _ => settlements tr = [] := by
  have htext : ∀ text entities, Delivered
      (announcing (d.sender.sendText text replyTo entities none)) fun tr _ => settlements tr = [] :=
    fun text entities => (delivered_sendText hs text replyTo entities none).mono fun _ _ _ h => h.2
  unfold sendOne
  split
  · exact htext _ _
  · exact htext _ _
  · exact htext _ _
  · exact (delivered_sendContact hs a caption entities replyTo).mono fun _ _ _ h => h.2
  · exact htext _ _
  · exact delivered_sendFile hs ha caption entities replyTo

theorem delivered_sendSingles (isOutgoing : Bool) (replyTo : Option Int)
    {attachments : List MaxAttachment} (halone : ∀ a ∈ attachments, a.kind.isAlbum = false)
    (caption : Option String) (entities : Entities) (first : Option Int) :
    Delivered (d.sendSingles isOutgoing replyTo attachments caption entities first)
      fun tr first' => settlements tr = [] ∧ (first' = none ↔ first = none ∧ attachments = []) := by
  induction attachments generalizing caption entities first with
  | nil => exact delivered_pure ⟨rfl, by simp⟩
  | cons a rest ih =>
      refine Delivered.bind (delivered_sendOne hs (halone a List.mem_cons_self) _ _ _ _)
        fun tr sent _ h => ?_
      refine (ih (fun a ha => halone a (List.mem_cons_of_mem _ ha)) none none _).mono
        fun tr' first' _ h' => ⟨by rw [settlements_append, h, h'.1]; rfl, ?_⟩
      rw [h'.2]
      simp

theorem delivered_sendTail (tail : String) (replyTo first : Option Int) :
    Delivered (d.sendTail tail replyTo first) fun tr first' =>
      settlements tr = [] ∧ (first' = none ↔ first = none ∧ tail.isEmpty = true) := by
  unfold sendTail
  split
  · next htail => exact delivered_pure ⟨rfl, by simp [htail]⟩
  · next htail =>
      refine Delivered.bind (delivered_sendText hs _ _ _ _) fun tr sent _ h => delivered_pure ?_
      exact ⟨by rw [List.append_nil]; exact h.2, by simp [htail]⟩

/-- What a delivery comes to: the album, and whether there is a head. -/
def ReceiptOf (message : IncomingMaxMessage) (tail : String) (tr : List (Asked Call.Outcome))
    (receipt : DeliveryReceipt) : Prop :=
  ∃ tr₁ tr₂, tr = tr₁ ++ tr₂ ∧
    AlbumSent (albumAttachments message).length tr₁ receipt.album ∧ settlements tr₂ = [] ∧
    (receipt.head = none ↔
      receipt.album = [] ∧ singleAttachments message = [] ∧ tail.isEmpty = true)

theorem delivered_deliverReceipt {message : IncomingMaxMessage}
    (halbum : albumAttachments message ≠ []) (caption : String) (entities : Entities)
    (replyTo : Option Int) :
    Delivered (d.deliverReceipt message caption entities replyTo) fun tr receipt =>
      ReceiptOf message (splitCaption caption).2 tr receipt := by
  unfold deliverReceipt
  generalize splitCaption caption = halves
  dsimp only
  rw [if_neg (by simpa using halbum)]
  refine Delivered.bind (delivered_sendAlbum hs _ _ _ fun a => isAlbum_of_mem)
    fun tr₁ parts _ h₁ => ?_
  refine Delivered.bind (delivered_sendSingles hs _ _ (fun a => not_isAlbum_of_mem halbum) _ _ _)
    fun tr₂ first _ h₂ => ?_
  refine Delivered.bind (delivered_sendTail hs _ _ first) fun tr₃ first' _ h₃ =>
    delivered_pure ?_
  refine ⟨tr₁, tr₂ ++ tr₃, by simp, h₁, by rw [settlements_append, h₂.1, h₃.1]; rfl, ?_⟩
  rw [h₃.2, h₂.2]
  simp [and_assoc]

end

end MaxMediaDelivery

attribute [irreducible] Answers

end Telemax.Media
