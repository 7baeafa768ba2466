import Telemax.Owner.Mapped

/-!
# Telemax.Owner.Spoken

What stands in MAX for the owner is what the owner wrote.  A message in MAX shows a part of a
message handed to an intake, the emoji of a reaction that is said as a note, the text of an accepted
edit of that message, or the text of an `edit_text` call — and every such call carries the text of
an accepted edit.

`Spoken` says where the text of a send comes from: an intake, an edit written over a send that
had not gone out, or the splitting of such a text, under the row of its message.  It is kept through
the queue (`Sends`), beside what the payloads of edits say (`Edits`).
-/

namespace Telemax.Owner

open MessageMap State

/-! ## where a text comes from -/

/-- The owner's words for a job: a part of a message or the emoji of a note, an accepted edit, or a
piece of one of these, filed under the row of its message. -/
inductive Spoken (s : State) : String → String → Prop
  | part {p : Nat} {y : Pass} {reply : Option Int} {link : Nat} {spec : JobSpec}
      (hy : s.passes.get? p = some y) (h : spec ∈ y.message.parts reply link) :
      Spoken s spec.sourceKey (shown spec.payload)
  | edited {d : Edit} (hd : d ∈ s.edits) : Spoken s d.target.sendKey d.text
  | piece {m : Message} {key text chunk : String} {link index : Nat} (h : Spoken s key text)
      (hm : Linked s link m) (hjob : JobOf m link key)
      (hchunk : (chunk, index) ∈ (splitMaxText text).zipIdx) :
      Spoken s (textPartSourceKey (legacyTextSourceKey link) index (splitMaxText text).length) chunk

/-- The call was made for an accepted edit, with its text. -/
def FromEdit (s : State) (c : Call) : Prop :=
  ∃ d ∈ s.edits, d.jobKey = c.job ∧ d.text = c.text ∧ d.target.account = c.account ∧
    d.target.key = c.key

/-- The message shows the words its job was given, or those of a call that named it. -/
def Shows (s : State) (b : Bubble) : Prop :=
  Spoken s b.job b.text ∨
    ∃ c ∈ s.calls, c.chatId = b.chatId ∧ c.messageId = b.messageId ∧ c.text = b.text

/-- The payload of an edit is that of an accepted one. -/
def Edits (s : State) (kind : JobKind) (key : String) (payload : Payload) : Prop :=
  kind = .tgToMaxEdit → ¬SendKey key ∧ ∀ m, Mutation.read payload = some m →
    ∃ d ∈ s.edits, d.jobKey = key ∧ d.target = m ∧ payload.str? "text" = some d.text

/-- A payload that could create a message of the owner's shows the owner's words. -/
def Sends (s : State) (kind : JobKind) (key : String) (payload : Payload) : Prop :=
  (kind ∈ ownKinds → isCreating kind = true → SendKey key) ∧
    (SendKey key → ∀ chat, payload.int? "max_chat_id" = some chat → Spoken s key (shown payload))

def Worded (s : State) (kind : JobKind) (key : String) (payload : Payload) : Prop :=
  Edits s kind key payload ∧ Sends s kind key payload

/-! ## payloads -/

/-- An edit reads back the message it names. -/
theorem read_edit (d : Edit) : Mutation.read d.payload = some d.target := by
  obtain ⟨⟨account, message, link, key, sendKey⟩, chat, pts, fingerprint, text⟩ := d
  cases link with
  | none => rfl
  | some link => rfl

theorem str?_edit (d : Edit) : d.payload.str? "text" = some d.text := by
  obtain ⟨⟨account, message, link, key, sendKey⟩, chat, pts, fingerprint, text⟩ := d
  cases link with
  | none => rfl
  | some link => rfl

/-- Written over, a payload shows the new text, or has no text to show. -/
theorem shown_withText (p : Payload) (text : String) :
    shown (withText p text) = text ∨ shown (withText p text) = shown p := by
  unfold withText
  split
  · next htext =>
    obtain ⟨v, hv⟩ := Option.isSome_iff_exists.mp htext
    left
    simp [shown, Payload.str?, get_set, hv]
  · split
    · next htext hcaption =>
      obtain ⟨v, hv⟩ := Option.isSome_iff_exists.mp hcaption
      left
      have hnone : p.get "text" = none := by simpa using htext
      simp [shown, Payload.str?, get_set, hv, hnone]
    · exact .inr rfl

/-! ## what stays -/

section

variable {s t : State} {w : World} {e : Event} {qe : Option Queue.Event}

/-- An accepted edit stays accepted. -/
theorem Moved.edits (h : Moved s e qe w) {d : Edit} (hd : d ∈ s.edits) : d ∈ w.edits := by
  cases h with
  | edited => exact List.mem_cons_of_mem _ hd
  | queue =>
    unfold State.afterQueue
    split <;> exact hd
  | absorbed | cancelled => split <;> exact hd
  | _ => exact hd

/-- What a call says was made for the edit whose job made it. -/
theorem Moved.calls (h : Moved s e qe w) :
    w.calls = s.calls ∨ ∃ a x d text stage chat message reaches, Editing s a x d text stage ∧
      w = s.callEdit a x d chat message text reaches := by
  cases h with
  | editCalled hx | editSent hx => exact .inr ⟨_, _, _, _, _, _, _, _, hx, rfl⟩
  | queue =>
    left
    unfold State.afterQueue
    split <;> rfl
  | absorbed | cancelled =>
    left
    split <;> rfl
  | _ => exact .inl rfl

/-- How a message in MAX comes to show what it shows. -/
theorem Moved.shown (h : Moved s e qe w) {b : Bubble} (hb : b ∈ w.chat) :
    (∃ b' ∈ s.chat, b'.chatId = b.chatId ∧ b'.messageId = b.messageId ∧ b'.job = b.job ∧
      b'.text = b.text) ∨
    (∃ a x chat, AtStage s a x .begun ∧ x.spec.kind ∈ ownKinds ∧ isCreating x.spec.kind = true ∧
      x.spec.payload.int? "max_chat_id" = some chat ∧ b.job = x.spec.sourceKey ∧
      b.text = shown x.spec.payload) ∨
    ∃ c ∈ w.calls, c.chatId = b.chatId ∧ c.messageId = b.messageId ∧ c.text = b.text := by
  have hsame (hw : w.chat = s.chat) : ∃ b' ∈ s.chat, b'.chatId = b.chatId ∧
      b'.messageId = b.messageId ∧ b'.job = b.job ∧ b'.text = b.text :=
    ⟨b, hw ▸ hb, rfl, rfl, rfl, rfl⟩
  cases h with
  | posted hx hk hc hm hfresh hchat =>
    obtain rfl | hold := List.mem_cons.mp hb
    · exact .inr (.inl ⟨_, _, _, hx, hk, hc, hchat, rfl, rfl⟩)
    · exact .inl ⟨b, hold, rfl, rfl, rfl, rfl⟩
  | editCalled | editSent =>
    obtain ⟨b', hb', rfl⟩ := List.mem_map.mp hb
    split
    · next hcond =>
      obtain ⟨⟨-, hchat⟩, hmessage⟩ := by simpa using hcond
      exact .inr (.inr ⟨_, List.mem_cons_self, hchat.symm, hmessage.symm, rfl⟩)
    · exact .inl ⟨b', hb', rfl, rfl, rfl, rfl⟩
  | deleteCalled | deleteSent =>
    obtain ⟨b', hb', rfl⟩ := List.mem_map.mp hb
    refine .inl ⟨b', hb', ?_⟩
    split <;> exact ⟨rfl, rfl, rfl, rfl⟩
  | queue =>
    refine .inl (hsame ?_)
    unfold State.afterQueue
    split <;> rfl
  | absorbed | cancelled =>
    refine .inl (hsame ?_)
    split <;> rfl
  | _ => exact .inl (hsame rfl)

theorem pass_message (h : step s e = some t) {p : Nat} {y : Pass}
    (hy : s.passes.get? p = some y) :
    ∃ y', t.passes.get? p = some y' ∧ y'.message = y.message := by
  obtain ⟨y', hy', hc⟩ := pass_kept h hy
  refine ⟨y', hy', ?_⟩
  generalize s.queueEvent? e = qe at hc
  cases hc <;> rfl

theorem Spoken.step {key text : String} (hs : Spoken s key text) (hp : Passes s)
    (h : Owner.step s e = some t) : Spoken t key text := by
  induction hs with
  | part hy hspec =>
    obtain ⟨y', hy', hmessage⟩ := pass_message h hy
    exact .part hy' (hmessage ▸ hspec)
  | edited hd => exact .edited ((step_moved h).1.edits hd)
  | piece _ hm hjob hchunk ih => exact .piece ih (hm.step hp h) hjob hchunk

theorem Worded.step {kind : JobKind} {key : String} {payload : Payload}
    (hs : Worded s kind key payload) (hp : Passes s) (h : Owner.step s e = some t) :
    Worded t kind key payload := by
  obtain ⟨hedit, hkind, hsend⟩ := hs
  refine ⟨fun hk => ⟨(hedit hk).1, fun m hm => ?_⟩, hkind, fun hkey chat hchat => ?_⟩
  · obtain ⟨d, hd, hrest⟩ := (hedit hk).2 m hm
    exact ⟨d, (step_moved h).1.edits hd, hrest⟩
  · exact (hsend hkey chat hchat).step hp h

end

/-! ## the state -/

/-- What holds of the owner's words in every state. -/
structure Words (s : State) : Prop where
  edits : ∀ d ∈ s.edits, SendKey d.target.sendKey
  carried : Queue.Carried (Worded s) s.queue
  found : Found (Worded s) s
  calls : ∀ c ∈ s.calls, FromEdit s c
  chat : ∀ b ∈ s.chat, Shows s b

/-- What is not a send and not an edit says nothing. -/
theorem worded_other {s : State} {kind : JobKind} {key : String} (payload : Payload)
    (hedit : kind ≠ .tgToMaxEdit) (hkind : ¬(kind ∈ ownKinds ∧ isCreating kind = true))
    (hkey : ¬SendKey key) : Worded s kind key payload :=
  ⟨fun h => absurd h hedit, fun hown hcreating => absurd ⟨hown, hcreating⟩ hkind,
    fun h => absurd h hkey⟩

theorem worded_foreign {s : State} {spec : JobSpec} (h : foreign spec = true) :
    Worded s spec.kind spec.sourceKey spec.payload := by
  have hkey := not_sendKey_foreign h
  rw [foreign, Bool.and_eq_true] at h
  refine worded_other _ (fun hk => ?_) (fun hown => ?_) hkey
  · rw [hk] at h
    exact absurd h.1 (by decide)
  · simp [hown.1] at h

/-- The jobs of a pass carry the parts of its message. -/
theorem worded_parts {s : State} {p : Nat} {y : Pass} (hy : s.passes.get? p = some y)
    {spec : JobSpec} (h : spec ∈ y.parts) : Worded s spec.kind spec.sourceKey spec.payload := by
  obtain ⟨hkind, -, index, total, hkey⟩ := mem_parts h
  have hsend : SendKey spec.sourceKey := by
    rw [hkey]
    exact sendKey_part (sendKey_message _) index total
  refine ⟨fun hk => ?_, fun _ _ => hsend, fun _ chat _ => .part hy h⟩
  rw [hkind] at hk
  unfold Message.kind at hk
  split at hk <;> cases hk

/-- The parts of an oversized text carry its pieces. -/
theorem worded_legacy {s : State} {r : MessageLink} {m : Message} {payload : Payload} {link : Nat}
    {key text : String} (htext : payload.str? "text" = some text)
    (hsends : ∀ chat, payload.int? "max_chat_id" = some chat → Spoken s key (shown payload))
    (hm : Linked s link m) (hjob : JobOf m link key) {spec : JobSpec}
    (h : spec ∈ legacyParts r payload link (splitMaxText text)) :
    Worded s spec.kind spec.sourceKey spec.payload := by
  unfold legacyParts at h
  obtain ⟨⟨chunk, index⟩, hmem, rfl⟩ := List.mem_map.mp h
  have hsend : SendKey (legacyTextSourceKey link) := sendKey_legacy link
  refine ⟨fun hk => ?_, fun _ _ => sendKey_part hsend _ _, fun _ chat hchat => ?_⟩
  · cases hk
  have hchat' : payload.int? "max_chat_id" = some chat := by
    rw [Payload.int?] at hchat ⊢
    cases hget : payload.get "max_chat_id" with
    | none =>
      rw [hget] at hchat
      exact absurd hchat (by simp [Payload.get])
    | some v =>
      rw [hget] at hchat
      exact hchat
  have hshown : shown payload = text := by simp [shown, htext]
  have hspoken : Spoken s key text := hshown ▸ hsends chat hchat'
  exact .piece hspoken hm hjob hmem

namespace Words

variable {s t : State} {e : Event}

theorem start : Words system.start where
  edits d hd := by cases hd
  carried := .start _
  found a send h := by cases h
  calls c hc := by cases hc
  chat b hb := by cases hb

/-- The key of the send an id of the owner's names. -/
theorem sendKey_ownerTarget {account message : Int} {d : Mutation} {r : MessageLink}
    (h : s.ownerTarget account message = some (d, r)) : SendKey d.sendKey := by
  have hmapped : ∀ {d r}, s.mappedTarget account message = some (d, r) → SendKey d.sendKey := by
    intro d r h
    unfold State.mappedTarget at h
    obtain ⟨found, -, hd⟩ := Option.map_eq_some_iff.mp h
    obtain rfl := (Prod.mk.inj hd).1
    exact .inr (.inl (scheme_telegramSourceKey 0 message (some account)))
  unfold State.ownerTarget at h
  split at h
  · split at h
    · obtain rfl := (Prod.mk.inj (Option.some.inj h)).1
      dsimp only
      split
      · exact .inr (.inl (scheme_ownerAlbumSourceKey _))
      · exact .inr (.inl (scheme_telegramSourceKey 0 _ (some account)))
    · exact hmapped h
  · exact hmapped h

/-- The attempt of an edit is that of an accepted one. -/
theorem accepted (hs : Words s) {a : Nat} {x : Attempt} {d : Mutation} {text : String}
    {stage : Stage} (hx : Editing s a x d text stage) :
    ∃ d' ∈ s.edits, d'.jobKey = x.spec.sourceKey ∧ d'.target = d ∧ d'.text = text := by
  obtain ⟨-, hedit⟩ := (hs.carried.attempt a x hx.attempt).1 hx.kind
  obtain ⟨d', hd', hkey, htarget, htext⟩ := hedit d hx.read
  exact ⟨d', hd', hkey, htarget, Option.some.inj (htext.symm.trans hx.text)⟩

/-- Every job that is filed carries the owner's words. -/
theorem files (hs : Words s) (ht : Truth s) {qe : Queue.Event}
    (h : Moved s e (some qe) t.toWorld) (hst : Owner.step s e = some t) {spec : JobSpec} (hspec : spec ∈ qe.specs) :
    Worded t spec.kind spec.sourceKey spec.payload := by
  generalize hw : t.toWorld = w at h
  cases h with
  | queue ha =>
    cases qe with
    | submit spec' barrier =>
      obtain rfl := List.mem_singleton.mp hspec
      exact worded_foreign ha
    | enqueueBatch specs => exact worded_foreign (List.all_eq_true.mp ha spec hspec)
    | _ => cases hspec
  | filed hy hp => exact (worded_parts hy hspec).step ht.passes hst
  | @submitted p index y spec' hy hp hspec' =>
    obtain rfl := List.mem_singleton.mp hspec
    exact (worded_parts hy (List.mem_of_getElem? hspec')).step ht.passes hst
  | @edited account message text stripped fingerprint pts r d _ hchat hpts htext hsame =>
    obtain rfl := List.mem_singleton.mp hspec
    have hd : d ∈ t.edits := by
      rw [show t.edits = t.toWorld.edits from rfl, hw]
      exact List.mem_cons_self
    have hkey : ¬SendKey d.jobKey := not_sendKey_edit _ _ _ _
    refine ⟨fun _ => ⟨hkey, fun m hm => ⟨d, hd, rfl, ?_, str?_edit d⟩⟩,
      fun _ hcreating => ?_, fun h => absurd h hkey⟩
    · exact Option.some.inj ((read_edit d).symm.trans hm)
    · cases hcreating
  | deleted =>
    obtain rfl := List.mem_singleton.mp hspec
    exact worded_other _ (by simp [mutationSpec]) (fun hkind => by cases hkind.2)
      (not_sendKey_delete _ _)
  | @split a x text link r hx hk hm htext hlink hlong hr =>
    obtain ⟨-, hkind, hsends⟩ := hs.carried.attempt a x hx.attempt
    have hkey := hkind (by rw [hk]; decide) (by rw [hk]; decide)
    -- The job that is split names the row of its message.
    obtain ⟨-, hnames⟩ := ht.carried.attempt a x hx.attempt
    obtain ⟨m, hm', -, hjob⟩ := hnames hkey link hlink
    exact (worded_legacy htext (hsends hkey) hm' hjob hspec).step ht.passes hst
  | crash | absorbed | absorbedFailed | cancelled | archiveRead | archived => cases hspec

theorem step_carried (hs : Words s) (ht : Truth s) (h : Owner.step s e = some t) :
    Queue.Carried (Worded t) t.queue := by
  obtain ⟨hmoved, hqueue⟩ := step_moved h
  have hbefore := hs.carried.mono fun kind key payload (hn : Worded s kind key payload) =>
    hn.step ht.passes h
  cases hqe : s.queueEvent? e with
  | none =>
    rw [hqe] at hqueue
    rw [show t.queue = s.queue from hqueue]
    exact hbefore
  | some qe =>
    rw [hqe] at hqueue hmoved
    refine hbefore.step hqueue (fun kind key payload hn => ⟨fun hk => ?_, hn.2.1, ?_⟩)
      (fun spec hspec => hs.files ht hmoved h hspec) fun kind key old payload hre hn => ?_
    · refine ⟨(hn.1 hk).1, fun m hm => ?_⟩
      cases hm
    · intro _ chat hchat
      simp [Payload.int?, Payload.get, Payload.cleared] at hchat
    · obtain ⟨a, x, d, text, send, hx, rfl, rfl⟩ := hmoved.rewrites hre
      obtain ⟨d', hd', -, rfl, rfl⟩ := hs.accepted hx
      have hkey := hs.edits d' hd'
      refine ⟨fun hk => absurd hkey (hn.1 hk).1, hn.2.1, fun _ chat hchat => ?_⟩
      rw [int?_withText _ _ (by decide) (by decide)] at hchat
      obtain hnew | hold := shown_withText send.2.payload d'.text
      · rw [hnew]
        exact .edited (hmoved.edits hd')
      · rw [hold]
        obtain ⟨x', d'', kind', hx', hd'', -, -, hsends⟩ := hs.found a send hx.stage
        obtain rfl := Option.some.inj (hx.attempt.symm.trans hx')
        obtain rfl := Option.some.inj (hx.read.symm.trans hd'')
        exact (hsends hkey chat hchat).step ht.passes h

theorem step_edits (hs : Words s) (h : Owner.step s e = some t) :
    ∀ d ∈ t.edits, SendKey d.target.sendKey := by
  have hmoved := (step_moved h).1
  rw [show t.edits = t.toWorld.edits from rfl]
  generalize t.toWorld = w at hmoved
  generalize s.queueEvent? e = qe at hmoved
  cases hmoved with
  | edited ht =>
    intro d hd
    obtain rfl | hd := List.mem_cons.mp hd
    · exact sendKey_ownerTarget ht
    · exact hs.edits d hd
  | queue =>
    unfold State.afterQueue
    split <;> exact hs.edits
  | absorbed | cancelled => split <;> exact hs.edits
  | _ => exact hs.edits

theorem FromEdit.step {c : Call} (hc : FromEdit s c) (h : Owner.step s e = some t) :
    FromEdit t c := by
  obtain ⟨d, hd, hrest⟩ := hc
  exact ⟨d, (step_moved h).1.edits hd, hrest⟩

theorem step_calls (hs : Words s) (h : Owner.step s e = some t) : ∀ c ∈ t.calls, FromEdit t c := by
  intro c hc
  have hmoved := (step_moved h).1
  obtain hsame | ⟨a, x, d, text, stage, chat, message, reaches, hx, hw⟩ := hmoved.calls
  · exact FromEdit.step (hs.calls c (hsame ▸ hc)) h
  · obtain rfl | hold : _ ∨ c ∈ s.calls := List.mem_cons.mp (by
      rw [show t.calls = t.toWorld.calls from rfl, hw] at hc
      exact hc)
    · obtain ⟨d', hd', hkey, rfl, htext⟩ := hs.accepted hx
      exact ⟨d', hmoved.edits hd', hkey, htext, rfl, rfl⟩
    · exact FromEdit.step (hs.calls c hold) h

theorem step_chat (hs : Words s) (ht : Truth s) (h : Owner.step s e = some t) :
    ∀ b ∈ t.chat, Shows t b := by
  intro b hb
  have hmoved := (step_moved h).1
  obtain ⟨b', hb', hchat, hid, hjob, htext⟩ | ⟨a, x, chat, hx, hk, hc, hchat, hjob, htext⟩ |
    hcalled := hmoved.shown hb
  · obtain hspoken | ⟨c, hc, hcchat, hcid, hctext⟩ := hs.chat b' hb'
    · left
      rw [← hjob, ← htext]
      exact hspoken.step ht.passes h
    · right
      refine ⟨c, ?_, hcchat.trans hchat, hcid.trans hid, hctext.trans htext⟩
      obtain hsame | ⟨a, x, d, text, stage, chat, message, reaches, -, hw⟩ := hmoved.calls
      · exact hsame ▸ hc
      · rw [show t.calls = t.toWorld.calls from rfl, hw]
        exact List.mem_cons_of_mem _ hc
  · left
    obtain ⟨-, hkind, hsends⟩ := hs.carried.attempt a x hx.attempt
    rw [hjob, htext]
    exact (hsends (hkind hk hc) chat hchat).step ht.passes h
  · exact .inr hcalled

theorem step (hs : Words s) (ht : Truth s) (h : Owner.step s e = some t) : Words t where
  edits := hs.step_edits h
  carried := hs.step_carried ht h
  found := hs.found.step hs.carried (fun _ _ _ hn => hn.step ht.passes h) h
  calls := hs.step_calls h
  chat := hs.step_chat ht h

end Words

theorem words {s : State} {ok : State → Event → Prop} (h : Run.Reaches system ok s) : Words s :=
  h.invariant_of (fun _ hr => truth hr) .start fun _ _ _ ht hs _ hst => hs.step ht hst

/-! ## the result -/

/-- A reaction of the owner's to their message `11`, for which MAX has no counterpart. -/
def ownNote : Message where
  target := { name := "bridge", botId := 7, maxChatId := 1 }
  account := none
  messageId := 11
  chatId := 7
  ownerChatId := 5
  replyTo := none
  content := .note 5 3 "🤌" 900

/-- The note is written down, sent and answered; its pass asks nothing before. -/
def ownNoteSent : List Event :=
  [.queue .requeueSelect, .queue .started, .arrive ownNote, .record 1, .submit 1,
   .queue (.claim 1), .queue (.enter 1), .queue (.sending 1), .post 1 901, .answer 1]

/-- The text of `ownText` is sent, and then edited. -/
def ownTextEdited : List Event :=
  ownTextSent ++
    [.queue (.settle 1 (.delivered (some 900)) 0), .edit 5 11 "goodbye" 3 "fingerprint" "",
     .queue (.claim 2), .queue (.enter 2), .work 2 true, .work 2 true]

end Telemax.Owner
