import Telemax.Owner.Steps
import Telemax.Queue.Payloads

/-!
# Telemax.Owner.Mapped

Whose MAX message a mapping row names.  In every run — any number of passes over any
message, replays, crashes, retries, edits that rewrite a payload — a row that was written
for a message of the owner carries the id of a MAX message only if that message was created
by a job of the same message, of one under the same id, or of another part of its album.  Both
messages were handed to an intake, and both passes have the row in hand.

Three facts are carried together: every payload that could create a message names the row of
its message (`Named`), a sender that has an id has it from the message it created (`Made`), and
every pass has the row of its own message, or of kin of it (`Belongs`).  Kin of kin is kin, since
an id names one message and a message is in one album at most (`Grouped`).
-/

namespace Telemax.Owner

open MessageMap State

/-! ## the keys of the sends -/

/-- The first field of a key. -/
def scheme (key : String) : Option (List Char) := (keyFields key).head?

theorem scheme_append {a : String} (h : ':' ∉ a.toList) (b : String) :
    scheme (a ++ ":" ++ b) = some a.toList := by
  rw [scheme, keyFields_append, keyFields_plain h]
  rfl

/-- More fields change nothing about the first. -/
theorem scheme_more (a b : String) : scheme (a ++ ":" ++ b) = scheme a := by
  rw [scheme, scheme, keyFields_append]
  have hne : keyFields a ≠ [] := List.splitOn_ne_nil _ _
  rw [List.head?_append_of_ne_nil _ hne]

/-- The keys under which messages of the owner are sent. -/
def SendKey (key : String) : Prop :=
  scheme key = some "tg".toList ∨ scheme key = some "tg-owner-msg".toList ∨
    scheme key = some "legacy-text".toList ∨ scheme key = some "tg-owner-note".toList

theorem scheme_telegramSourceKey (bot message : Int) (account : Option Int) :
    scheme (telegramSourceKey bot message account) =
      some (if account.isSome then "tg-owner-msg".toList else "tg".toList) := by
  cases account with
  | none =>
    have hkey : telegramSourceKey bot message none =
        "tg" ++ ":" ++ (toString bot ++ ":" ++ toString message) := by
      change "tg:" ++ toString bot ++ ":" ++ toString message = _
      simp [String.append_assoc]
    rw [hkey]
    exact scheme_append (by decide) _
  | some account =>
    have hkey : telegramSourceKey bot message (some account) =
        "tg-owner-msg" ++ ":" ++ (toString account ++ ":" ++ toString message) := by
      change "tg-owner-msg:" ++ toString account ++ ":" ++ toString message = _
      simp [String.append_assoc]
    rw [hkey]
    exact scheme_append (by decide) _

theorem scheme_ownerAlbumSourceKey (group : String) :
    scheme (ownerAlbumSourceKey group) = some "tg-owner-msg".toList := by
  have hkey : ownerAlbumSourceKey group = "tg-owner-msg" ++ ":" ++ group := by
    change "tg-owner-msg:" ++ group = _
    simp
  rw [hkey]
  exact scheme_append (by decide) _

theorem scheme_ownerEmojiNoteSourceKey (account bot message : Int) (pts : Nat) (emoji : String) :
    scheme (ownerEmojiNoteSourceKey account bot message pts emoji) =
      some "tg-owner-note".toList := by
  have hkey : ownerEmojiNoteSourceKey account bot message pts emoji = "tg-owner-note" ++ ":" ++
      (toString account ++ ":" ++ toString bot ++ ":" ++ toString message ++ ":" ++
        toString pts ++ ":" ++ emoji) := by
    change "tg-owner-note:" ++ toString account ++ ":" ++ toString bot ++ ":" ++
      toString message ++ ":" ++ toString pts ++ ":" ++ emoji = _
    simp [String.append_assoc]
  rw [hkey]
  exact scheme_append (by decide) _

theorem scheme_textPart (base : String) (index total : Nat) :
    scheme (textPartSourceKey base index total) = scheme base := by
  unfold textPartSourceKey
  split
  · rfl
  · have hkey : s!"{base}:text-part:{index + 1}:{total}" =
        base ++ ":" ++ ("text-part:" ++ toString (index + 1) ++ ":" ++ toString total) := by
      have hcolon : ":text-part:" = ":" ++ "text-part:" := rfl
      change base ++ ":text-part:" ++ toString (index + 1) ++ ":" ++ toString total = _
      simp only [hcolon, String.append_assoc]
    rw [hkey]
    exact scheme_more _ _

theorem scheme_legacy (link : Nat) :
    scheme (legacyTextSourceKey link) = some "legacy-text".toList := by
  have hkey : legacyTextSourceKey link = "legacy-text" ++ ":" ++ toString link := by
    change "legacy-text:" ++ toString link = _
    simp
  rw [hkey]
  exact scheme_append (by decide) _

/-- The job of a message is filed under the key of a send. -/
theorem sendKey_message (m : Message) : SendKey m.sourceKey := by
  unfold Message.sourceKey
  split
  · exact .inr (.inr (.inr (scheme_ownerEmojiNoteSourceKey _ _ _ _ _)))
  · split
    · exact .inr (.inl (scheme_ownerAlbumSourceKey _))
    · rw [SendKey, scheme_telegramSourceKey]
      split
      · exact .inr (.inl rfl)
      · exact .inl rfl

theorem sendKey_legacy (link : Nat) : SendKey (legacyTextSourceKey link) :=
  .inr (.inr (.inl (scheme_legacy link)))

theorem sendKey_part {base : String} (h : SendKey base) (index total : Nat) :
    SendKey (textPartSourceKey base index total) := by
  rw [SendKey, scheme_textPart]
  exact h

theorem not_sendKey_edit (account : Int) (key : String) (pts : Nat) (fingerprint : String) :
    ¬SendKey (editSourceKey account key pts fingerprint) := by
  have hkey : editSourceKey account key pts fingerprint = "tg-owner-edit" ++ ":" ++
      (toString account ++ ":" ++ key ++ ":" ++ toString pts ++ ":" ++ fingerprint) := by
    change "tg-owner-edit:" ++ toString account ++ ":" ++ key ++ ":" ++ toString pts ++ ":" ++
      fingerprint = _
    simp [String.append_assoc]
  rw [hkey, SendKey, scheme_append (by decide)]
  simp

theorem not_sendKey_delete (account : Int) (key : String) :
    ¬SendKey (deleteSourceKey account key) := by
  have hkey : deleteSourceKey account key = "tg-owner-delete" ++ ":" ++
      (toString account ++ ":" ++ key) := by
    change "tg-owner-delete:" ++ toString account ++ ":" ++ key = _
    simp [String.append_assoc]
  rw [hkey, SendKey, scheme_append (by decide)]
  simp

/-- What is not the bridge's own carries no such key. -/
theorem not_sendKey_foreign {spec : JobSpec} (h : foreign spec = true) :
    ¬SendKey spec.sourceKey := by
  rw [foreign, Bool.and_eq_true] at h
  rintro (hkey | hkey | hkey | hkey) <;> rw [scheme] at hkey <;> simp [hkey, ownSchemes] at h

/-! ## the passes -/

/-- A pass that has no row yet, and one that files the jobs of its row. -/
structure Pass.Ready (y : Pass) : Prop where
  early : y.progress = .replying ∨ y.progress = .locating ∨ y.progress = .locatingHead ∨
    y.progress = .recording → y.link = none
  filing : y.progress = .binding ∨ y.progress = .filing ∨ (∃ index, y.progress = .turn index) ∨
    (∃ index a, y.progress = .waiting index a) → y.link.isSome = true

/-- A pass over this message has the row in hand. -/
def Linked (s : State) (i : Nat) (m : Message) : Prop :=
  ∃ p y, s.passes.get? p = some y ∧ y.link = some i ∧ y.message = m

theorem Pass.ready_mapped (y : Pass) (link : Nat) : (y.mapped link).Ready := by
  refine ⟨fun h => ?_, fun _ => rfl⟩
  unfold Pass.mapped at h
  dsimp only at h
  split at h
  · rcases h with h | h | h | h <;> cases h
  · split at h <;> rcases h with h | h | h | h <;> cases h

theorem Message.ready_begin (m : Message) : (Pass.begin m).Ready := by
  refine ⟨fun _ => rfl, fun h => ?_⟩
  unfold Pass.begin at h
  dsimp only at h
  split at h <;> rcases h with h | h | ⟨_, h⟩ | ⟨_, _, h⟩ <;> cases h

theorem afterPart_cases (y : Pass) (index : Nat) (x : Attempt) (stage : Stage) :
    afterPart y index x stage = .over ∨ afterPart y index x stage = .dead ∨
      afterPart y index x stage = .turn (index + 1) := by
  unfold afterPart
  split
  · split
    · exact .inr (.inr rfl)
    · exact .inl rfl
  · split
    · exact .inl rfl
    · exact .inl rfl
    · split
      · exact .inr (.inl rfl)
      · exact .inr (.inl rfl)
      · split
        · exact .inl rfl
        · exact .inr (.inl rfl)
    · split
      · exact .inr (.inl rfl)
      · exact .inr (.inl rfl)
      · split
        · exact .inl rfl
        · exact .inr (.inl rfl)
  · exact .inl rfl
  · exact .inr (.inl rfl)

/-- A pass that is over its work needs nothing. -/
theorem Pass.ready_done {y : Pass} (h : y.progress = .over ∨ y.progress = .dead) : y.Ready := by
  constructor
  · intro hp
    rcases h with h | h <;> rw [h] at hp <;> rcases hp with hp | hp | hp | hp <;> cases hp
  · intro hp
    rcases h with h | h <;> rw [h] at hp <;>
      rcases hp with hp | hp | ⟨_, hp⟩ | ⟨_, _, hp⟩ <;> cases hp

/-- A pass that files keeps its row. -/
theorem Pass.ready_filing {y : Pass} (hlink : y.link.isSome = true)
    (h : y.progress = .binding ∨ y.progress = .filing ∨ (∃ index, y.progress = .turn index) ∨
      (∃ index a, y.progress = .waiting index a)) : y.Ready := by
  refine ⟨fun hp => ?_, fun _ => hlink⟩
  rcases h with h | h | ⟨_, h⟩ | ⟨_, _, h⟩ <;> rw [h] at hp <;>
    rcases hp with hp | hp | hp | hp <;> cases hp

section

variable {s t : State} {e : Event} {qe : Option Queue.Event} {p : Nat} {y y' : Pass}

theorem PassChange.ready (h : PassChange s p y e qe y') (hy : y.Ready) : y'.Ready := by
  cases h with
  | same => exact hy
  | replied hp hnew =>
    refine ⟨fun _ => hy.early (.inl hp), fun h => ?_⟩
    rcases hnew with rfl | rfl <;> rcases h with h | h | ⟨_, h⟩ | ⟨_, _, h⟩ <;> cases h
  | mapped hl => exact y.ready_mapped _
  | aside hrun hnew =>
    rcases hnew with rfl | ⟨hbefore, hafter⟩
    · exact Pass.ready_done (.inr rfl)
    · refine ⟨fun _ => hy.early ?_, fun h => ?_⟩
      · rcases hbefore with h | h
        · exact .inr (.inl h)
        · exact .inr (.inr (.inl h))
      · rcases hafter with rfl | rfl <;>
          rcases h with h | h | ⟨_, h⟩ | ⟨_, _, h⟩ <;> cases h
  | bound hp =>
    exact Pass.ready_filing (hy.filing (.inl hp)) (.inr (.inr (.inl ⟨_, rfl⟩)))
  | filed hp =>
    exact Pass.ready_filing (hy.filing (.inr (.inl hp))) (.inr (.inr (.inl ⟨_, rfl⟩)))
  | submitted hp hspec =>
    exact Pass.ready_filing (hy.filing (.inr (.inr (.inl ⟨_, hp⟩))))
      (.inr (.inr (.inr ⟨_, _, rfl⟩)))
  | @resumed index a x hp hx hover =>
    obtain h | h | h := afterPart_cases y index x (s.stage a)
    · exact Pass.ready_done (.inl h)
    · exact Pass.ready_done (.inr h)
    · exact Pass.ready_filing (hy.filing (.inr (.inr (.inr ⟨_, _, hp⟩))))
        (.inr (.inr (.inl ⟨_, h⟩)))
  | crashed => exact Pass.ready_done (.inr rfl)

/-- A pass stays the pass over its message, and keeps its row. -/
theorem PassChange.keeps (h : PassChange s p y e qe y') (hy : y.Ready) :
    y'.message = y.message ∧ ∀ i, y.link = some i → y'.link = some i := by
  cases h with
  | mapped hl =>
    refine ⟨rfl, fun i hi => ?_⟩
    have hearly : y.link = none := by
      cases hl with
      | located hp => exact hy.early (.inr (.inl hp))
      | locatedHead hp => exact hy.early (.inr (.inr (.inl hp)))
      | recorded hp => exact hy.early (.inr (.inr (.inr hp)))
    rw [hearly] at hi
    cases hi
  | _ => exact ⟨rfl, fun _ hi => hi⟩

/-- Every pass is ready. -/
def Passes (s : State) : Prop := ∀ p y, s.passes.get? p = some y → y.Ready

theorem pass_kept (h : step s e = some t) (hy : s.passes.get? p = some y) :
    ∃ y', t.passes.get? p = some y' ∧ PassChange s p y e (s.queueEvent? e) y' := by
  have hpass := (step_moved h).1.pass p
  unfold PassAfter at hpass
  rwa [hy] at hpass

theorem pass_from (h : step s e = some t) (hy' : t.passes.get? p = some y') :
    (∃ y, s.passes.get? p = some y ∧ PassChange s p y e (s.queueEvent? e) y') ∨
      ∃ m, e = .arrive m ∧ s.admits m = true ∧ y' = .begin m := by
  have hpass := (step_moved h).1.pass p
  unfold PassAfter at hpass
  split at hpass
  · next y hy =>
    obtain ⟨y'', hy'', hc⟩ := hpass
    obtain rfl := Option.some.inj (hy'.symm.trans hy'')
    exact .inl ⟨y, hy, hc⟩
  · exact .inr (hpass y' hy')

theorem Passes.step (hs : Passes s) (h : step s e = some t) : Passes t := by
  intro p y' hy'
  obtain ⟨y, hy, hc⟩ | ⟨m, -, -, rfl⟩ := pass_from h hy'
  · exact hc.ready (hs p y hy)
  · exact m.ready_begin

theorem Linked.step {i : Nat} {m : Message} (hl : Linked s i m) (hs : Passes s)
    (h : step s e = some t) : Linked t i m := by
  obtain ⟨p, y, hy, hlink, rfl⟩ := hl
  obtain ⟨y', hy', hc⟩ := pass_kept h hy
  obtain ⟨hmessage, hkeep⟩ := hc.keeps (hs p y hy)
  exact ⟨p, y', hy', hkeep i hlink, hmessage⟩

end

/-! ## the payloads -/

/-- A key a job of this message is filed under, where row `i` is the message's. -/
def JobOf (m : Message) (i : Nat) (key : String) : Prop :=
  ∃ base index total, (base = m.sourceKey ∨ base = legacyTextSourceKey i) ∧
    key = textPartSourceKey base index total

/-- A payload names the row of its message, and the message's chat. -/
def Names (s : State) (key : String) (payload : Payload) : Prop :=
  ∀ link, payload.int? "link_id" = some link →
    ∃ m, Linked s link.toNat m ∧ payload.int? "max_chat_id" = some m.target.maxChatId ∧
      JobOf m link.toNat key

/-- What holds of every payload in the queue. -/
def Named (s : State) (kind : JobKind) (key : String) (payload : Payload) : Prop :=
  (kind ∈ ownKinds → isCreating kind = true → SendKey key) ∧ (SendKey key → Names s key payload)

theorem Names.mono {s t : State} {key : String} {payload : Payload} (h : Names s key payload)
    (hl : ∀ i m, Linked s i m → Linked t i m) : Names t key payload := by
  intro link hlink
  obtain ⟨m, hm, hchat, hkey⟩ := h link hlink
  exact ⟨m, hl _ _ hm, hchat, hkey⟩

/-- Every payload of a message names the row it was made for. -/
theorem names_payload {m : Message} {reply : Option Int} {link : Nat} {payload : Payload}
    (h : payload ∈ m.payloads reply link) :
    payload.int? "max_chat_id" = some m.target.maxChatId ∧
      ∀ n, payload.int? "link_id" = some n → n = link := by
  unfold Message.payloads at h
  split at h
  · obtain ⟨⟨chunk, index⟩, -, rfl⟩ := List.mem_map.mp h
    dsimp only
    split <;>
      simp (disch := decide) [Payload.int?, Payload.get, List.lookup_cons, List.lookup_nil, eq_comm]
  all_goals
    rw [List.mem_singleton] at h
    subst h
    simp (disch := decide) [Payload.int?, Payload.get, List.lookup_cons, eq_comm]

theorem mem_parts {m : Message} {reply : Option Int} {link : Nat} {spec : JobSpec}
    (h : spec ∈ m.parts reply link) :
    spec.kind = m.kind ∧ spec.payload ∈ m.payloads reply link ∧
      ∃ index total, spec.sourceKey = textPartSourceKey m.sourceKey index total := by
  unfold Message.parts at h
  obtain ⟨⟨payload, index⟩, hmem, rfl⟩ := List.mem_map.mp h
  exact ⟨rfl, List.fst_mem_of_mem_zipIdx hmem, index, _, rfl⟩

/-- The jobs of a pass name the row it has in hand. -/
theorem named_parts {s : State} {p : Nat} {y : Pass} (hy : s.passes.get? p = some y)
    (hlink : y.link.isSome = true) {spec : JobSpec} (h : spec ∈ y.parts) :
    Named s spec.kind spec.sourceKey spec.payload := by
  obtain ⟨i, hi⟩ := Option.isSome_iff_exists.mp hlink
  unfold Pass.parts at h
  rw [hi, Option.getD_some] at h
  obtain ⟨-, hpayload, index, total, hkey⟩ := mem_parts h
  obtain ⟨hchat, hname⟩ := names_payload hpayload
  refine ⟨fun _ _ => ?_, fun _ link hlink => ?_⟩
  · rw [hkey]
    exact sendKey_part (sendKey_message _) index total
  · rw [hname link hlink, Int.toNat_natCast]
    exact ⟨y.message, ⟨p, y, hy, hi, rfl⟩, hchat, _, index, total, .inl rfl, hkey⟩

/-- What is not a send is never asked. -/
theorem named_other {s : State} {kind : JobKind} {key : String} (payload : Payload)
    (hkind : ¬(kind ∈ ownKinds ∧ isCreating kind = true)) (hkey : ¬SendKey key) :
    Named s kind key payload :=
  ⟨fun hown hcreating => absurd ⟨hown, hcreating⟩ hkind, fun h => absurd h hkey⟩

theorem named_foreign {s : State} {spec : JobSpec} (h : foreign spec = true) :
    Named s spec.kind spec.sourceKey spec.payload := by
  refine named_other _ (fun hown => ?_) (not_sendKey_foreign h)
  rw [foreign, Bool.and_eq_true] at h
  simp [hown.1] at h

/-- What a payload holds under a key after one of its values is replaced. -/
theorem get_set (p : Payload) (key key' : String) (v : Value) :
    (p.set key v).get key' = if key' = key then (p.get key).map fun _ => v else p.get key' := by
  unfold Payload.set Payload.get
  induction p with
  | nil => simp
  | cons e p ih =>
    obtain ⟨k, w⟩ := e
    simp only [List.map_cons]
    by_cases hk : k = key
    · subst hk
      rw [if_pos rfl, List.lookup_cons, List.lookup_cons, List.lookup_cons]
      by_cases hkey : key' = k
      · simp [hkey]
      · simpa [hkey, beq_false_of_ne hkey] using ih
    · rw [if_neg hk, List.lookup_cons, List.lookup_cons, List.lookup_cons]
      by_cases hkey : key' = k
      · subst hkey
        simp [hk]
      · rw [beq_false_of_ne hkey, ih]
        by_cases hkey' : key' = key
        · subst hkey'
          simp [beq_false_of_ne hkey]
        · simp [hkey']

/-- A value under another key is read as before. -/
theorem int?_withText (p : Payload) (text : String) {key : String} (hne : key ≠ "text")
    (hne' : key ≠ "caption") : (withText p text).int? key = p.int? key := by
  have hget : (withText p text).get key = p.get key := by
    unfold withText
    split
    · rw [get_set, if_neg hne]
    · split
      · rw [get_set, if_neg hne']
      · rfl
  rw [Payload.int?, Payload.int?, hget]

theorem Names.withText {s : State} {key : String} {payload : Payload}
    (h : Names s key payload) (text : String) : Names s key (withText payload text) := by
  intro link hlink
  rw [int?_withText _ _ (by decide) (by decide)] at hlink
  rw [int?_withText _ _ (by decide) (by decide)]
  exact h link hlink

/-- The parts of an oversized text name the row of the text. -/
theorem named_legacy {s : State} {r : MessageLink} {payload : Payload} {link : Int} {key : String}
    {chunks : List String} (hlink : payload.int? "link_id" = some link)
    (hnames : Names s key payload) {spec : JobSpec}
    (h : spec ∈ legacyParts r payload link.toNat chunks) :
    Named s spec.kind spec.sourceKey spec.payload := by
  unfold legacyParts at h
  obtain ⟨⟨chunk, index⟩, -, rfl⟩ := List.mem_map.mp h
  have hsend : SendKey (legacyTextSourceKey link.toNat) := sendKey_legacy _
  obtain ⟨m, hm, hchat, -⟩ := hnames link hlink
  refine ⟨fun _ _ => sendKey_part hsend _ _, fun _ n hn => ?_⟩
  have hget : payload.get "max_chat_id" = some (.int m.target.maxChatId) := by
    unfold Payload.int? at hchat
    split at hchat
    · next k hk => rw [hk, Option.some.inj hchat]
    · cases hchat
  obtain rfl : n = link.toNat := by
    revert hn
    dsimp only
    split <;> simp (disch := decide) [Payload.int?, Payload.get, List.lookup_cons, List.lookup_nil, eq_comm]
  rw [Int.toNat_natCast]
  refine ⟨m, hm, ?_, _, index, _, .inr rfl, rfl⟩
  rw [hget]
  simp [Payload.int?, Payload.get]

/-! ## the senders -/

/-- A stage that has nothing in hand. -/
def Stage.plain : Stage → Bool
  | .created _ | .found _ | .ended (.delivered (some _)) => false
  | _ => true

/-- What an attempt of the owner's has made in MAX. -/
def Made (s : State) (x : Attempt) (message : Int) : Prop :=
  (x.spec.kind ∈ ownKinds ∧ isCreating x.spec.kind = true) ∧
    ∃ b ∈ s.chat, b.messageId = message ∧ b.job = x.spec.sourceKey ∧
      x.spec.payload.int? "max_chat_id" = some b.chatId

/-- How a sender comes by what it has in hand. -/
inductive StageChange (s : State) (e : Event) (w : World) (a : Nat) : Stage → Prop
  | same : StageChange s e w a (s.stage a)
  | posted {x : Attempt} {chat message : Int} (hx : AtStage s a x .begun)
      (hkind : x.spec.kind ∈ ownKinds ∧ isCreating x.spec.kind = true)
      (hchat : x.spec.payload.int? "max_chat_id" = some chat)
      (hw : ∃ b ∈ w.chat, b.messageId = message ∧ b.job = x.spec.sourceKey ∧ b.chatId = chat) :
      StageChange s e w a (.created message)
  | answered {x : Attempt} {message : Int} (hx : AtStage s a x (.created message)) :
      StageChange s e w a (.ended (.delivered (some message)))
  | foreign {remote : Option Int} (he : e.sender? = some a)
      (hkind : ∀ x, s.queue.attempts.get? a = some x → x.spec.kind ∉ ownKinds) :
      StageChange s e w a (.ended (.delivered remote))
  | found {x : Attempt} {d : Mutation} {send : Nat × OutboxItem}
      (hx : s.queue.attempts.get? a = some x) (hd : Mutation.read x.spec.payload = some d)
      (hs : s.queue.outbox.bySourceKey d.sendKey = some send) : StageChange s e w a (.found send)
  | plain {stage : Stage} (hp : stage.plain = true) : StageChange s e w a stage

/-- Either resolver knows its attempt, and what it has read. -/
theorem Asking.read {s : State} {a : Nat} {x : Attempt} {d : Mutation} {r : MessageLink}
    (h : Asking s a x d r) :
    s.queue.attempts.get? a = some x ∧ Mutation.read x.spec.payload = some d := by
  rcases h with ⟨text, hx⟩ | ⟨hx, -⟩
  · exact ⟨hx.attempt, hx.read⟩
  · exact ⟨hx.attempt, hx.read⟩

section

variable {s : State} {w : World} {e : Event} {qe : Option Queue.Event} {a b : Nat}

theorem StageChange.update {stage : Stage} (hw : w.stage = Function.update s.stage b stage)
    (h : StageChange s e w b stage) : StageChange s e w a (w.stage a) := by
  by_cases ha : a = b
  · subst ha
    rw [hw, Function.update_self]
    exact h
  · rw [hw, Function.update_of_ne ha]
    exact .same

/-- **A sender after an event.** -/
theorem Moved.stage (h : Moved s e qe w) (a : Nat) : StageChange s e w a (w.stage a) := by
  cases h with
  | @queue e ha =>
    unfold State.afterQueue
    split
    · next b outcome backoff =>
      refine .update rfl ?_
      cases outcome with
      | raised error => exact .plain rfl
      | delivered remote =>
        have hends : s.mayEnd b (.delivered remote) = true := ha
        unfold State.mayEnd at hends
        split at hends
        · next x hx =>
          rcases Bool.or_eq_true_iff.mp hends with hkind | hends
          · refine .foreign rfl fun x' hx' => ?_
            obtain rfl := Option.some.inj (hx.symm.trans hx')
            simpa using hkind
          · split at hends
            · next outcome hstage =>
              rw [eq_of_beq hends, ← hstage]
              exact .same
            · cases hends
            all_goals contradiction
        · next hnone => exact .foreign rfl fun x hx => by rw [hnone] at hx; cases hx
    · exact .update rfl (.plain rfl)
    · exact .same
  | posted hx hk hc hm hfresh hchat =>
    exact .update rfl (.posted hx ⟨hk, hc⟩ hchat ⟨_, List.mem_cons_self, rfl, rfl, rfl⟩)
  | answered hx hlink hm => exact .update rfl (.answered hx)
  | answeredPlain hx hlink => exact .update rfl (.answered hx)
  | sendFound hx hs hst => exact .update rfl (.found hx.read.1 hx.read.2 hs)
  | absorbed | cancelled =>
    split <;> exact .update rfl (.plain rfl)
  | split | splitLost | answerRefused | editOvertaken | editChecked | editNowhere | editLinked
  | editCalled | editSent | absorbedFailed | deleteNowhere | deleteLinked | deleteCalled
  | deleteSent | archiveRead | archiveGone | archived | sendMissing | sendBusy | sendGone
  | sendUnknown | confirmed => exact .update rfl (.plain rfl)
  | _ => exact .same

/-- What stands in MAX keeps its id, its chat and the job it came from. -/
theorem Moved.chat (h : Moved s e qe w) {b : Bubble} (hb : b ∈ s.chat) :
    ∃ b' ∈ w.chat, b'.messageId = b.messageId ∧ b'.job = b.job ∧ b'.chatId = b.chatId := by
  have hmap : ∀ f : Bubble → Bubble, (∀ c, (f c).messageId = c.messageId ∧ (f c).job = c.job ∧
      (f c).chatId = c.chatId) → w.chat = s.chat.map f →
      ∃ b' ∈ w.chat, b'.messageId = b.messageId ∧ b'.job = b.job ∧ b'.chatId = b.chatId := by
    intro f hf hw
    exact ⟨f b, by rw [hw]; exact List.mem_map_of_mem hb, hf b⟩
  cases h with
  | posted => exact ⟨b, List.mem_cons_of_mem _ hb, rfl, rfl, rfl⟩
  | editCalled | editSent | deleteCalled | deleteSent =>
    refine hmap _ (fun c => ?_) rfl
    split <;> exact ⟨rfl, rfl, rfl⟩
  | queue =>
    refine ⟨b, ?_, rfl, rfl, rfl⟩
    unfold State.afterQueue
    split <;> exact hb
  | absorbed | cancelled =>
    refine ⟨b, ?_, rfl, rfl, rfl⟩
    split <;> exact hb
  | _ => exact ⟨b, hb, rfl, rfl, rfl⟩

end

/-! ## what the queue is given -/

section

variable {s t : State} {w : World} {e : Event} {qe : Queue.Event}

/-- Every job that is filed names the row of its message. -/
theorem Moved.files (h : Moved s e (some qe) w) (hs : Passes s)
    (hcarried : Queue.Carried (Named s) s.queue) {spec : JobSpec} (hspec : spec ∈ qe.specs) :
    Named s spec.kind spec.sourceKey spec.payload := by
  cases h with
  | queue ha =>
    cases qe with
    | submit spec' barrier =>
      obtain rfl := List.mem_singleton.mp hspec
      exact named_foreign ha
    | enqueueBatch specs => exact named_foreign (List.all_eq_true.mp ha spec hspec)
    | _ => cases hspec
  | filed hy hp => exact named_parts hy ((hs _ _ hy).filing (.inr (.inl hp))) hspec
  | @submitted p index y spec' hy hp hspec' =>
    obtain rfl := List.mem_singleton.mp hspec
    exact named_parts hy ((hs _ _ hy).filing (.inr (.inr (.inl ⟨_, hp⟩))))
      (List.mem_of_getElem? hspec')
  | edited ht hchat hpts htext hsame =>
    obtain rfl := List.mem_singleton.mp hspec
    exact named_other _ (fun hkind => absurd hkind.2 nofun) (not_sendKey_edit _ _ _ _)
  | deleted ht =>
    obtain rfl := List.mem_singleton.mp hspec
    exact named_other _ (fun hkind => absurd hkind.2 nofun) (not_sendKey_delete _ _)
  | @split a x text link r hx hk hm htext hlink hlong hr =>
    obtain ⟨hkey, hnames⟩ := hcarried.attempt a x hx.attempt
    exact named_legacy hlink (hnames (hkey (by rw [hk]; decide) (by rw [hk]; decide))) hspec
  | crash | absorbed | absorbedFailed | cancelled | archiveRead | archived => cases hspec

/-- A payload that is written over another one is the one an edit found there, with its text. -/
theorem Moved.rewrites (h : Moved s e (some qe) w) {key : String} {payload : Payload}
    (hre : Queue.Rewrites qe key payload) :
    ∃ a x d text send, Editing s a x d text (.found send) ∧ key = d.sendKey ∧
      payload = withText send.2.payload text := by
  cases h with
  | queue ha => rcases hre with rfl | rfl <;> cases ha
  | absorbed hx hst =>
    rcases hre with hre | hre <;> cases hre
    exact ⟨_, _, _, _, _, hx, rfl, rfl⟩
  | absorbedFailed hx hst =>
    rcases hre with hre | hre <;> cases hre
    exact ⟨_, _, _, _, _, hx, rfl, rfl⟩
  | _ => rcases hre with hre | hre <;> cases hre

end

/-- The send a resolver has found satisfies `P`, under the key the resolver looked for. -/
def Found (P : JobKind → String → Payload → Prop) (s : State) : Prop :=
  ∀ a send, s.stage a = .found send → ∃ x d kind, s.queue.attempts.get? a = some x ∧
    Mutation.read x.spec.payload = some d ∧ P kind d.sendKey send.2.payload

section

variable {s t : State} {e : Event}

/-- An attempt keeps what it is for. -/
theorem attempt_before (h : step s e = some t) {a : Nat} {x y : Attempt}
    (hx : s.queue.attempts.get? a = some x) (hy : t.queue.attempts.get? a = some y) :
    y.spec = x.spec := by
  obtain ⟨y', hy', hc⟩ := attempt_kept h hx
  obtain rfl := Option.some.inj (hy.symm.trans hy')
  rcases hc with rfl | ⟨qe, -, hc⟩
  · rfl
  · exact hc.spec_eq

/-- What holds of the payloads in the queue holds of what the resolvers have read there. -/
theorem Found.step {P Q : JobKind → String → Payload → Prop} (hs : Found P s)
    (hcarried : Queue.Carried P s.queue) (hmono : ∀ kind key p, P kind key p → Q kind key p)
    (h : step s e = some t) : Found Q t := by
  intro a send hstage
  have hattempt : ∀ {x : Attempt} {d : Mutation}, s.queue.attempts.get? a = some x →
      Mutation.read x.spec.payload = some d → ∃ y, t.queue.attempts.get? a = some y ∧
        Mutation.read y.spec.payload = some d := by
    intro x d hx hd
    obtain ⟨y, hy, -⟩ := attempt_kept h hx
    exact ⟨y, hy, by rw [attempt_before h hx hy]; exact hd⟩
  have hchange := (step_moved h).1.stage a
  rw [show t.toWorld.stage a = t.stage a from rfl] at hchange
  generalize hnew : t.stage a = stage at hchange hstage
  cases hchange with
  | same =>
    obtain ⟨x, d, kind, hx, hd, hP⟩ := hs a send hstage
    obtain ⟨y, hy, hdy⟩ := hattempt hx hd
    exact ⟨y, d, kind, hy, hdy, hmono _ _ _ hP⟩
  | @found x d send' hx hd hsend =>
    obtain rfl := Stage.found.inj hstage
    obtain ⟨y, hy, hdy⟩ := hattempt hx hd
    obtain ⟨hrow, hkeyed⟩ := Table.first_some hsend
    obtain ⟨key, hk, hP⟩ := hcarried.row _ _ hrow
    obtain rfl : key = d.sendKey := Option.some.inj (hk.symm.trans (eq_of_beq hkeyed))
    exact ⟨y, d, send'.2.kind, hy, hdy, hmono _ _ _ hP⟩
  | posted | answered | foreign => cases hstage
  | plain hp =>
    rw [hstage] at hp
    cases hp

end

/-! ## the state -/

/-- What is in MAX for a row of the owner's is a message of the owner's message. -/
def RowMade (s : State) (i : Nat) (r : MessageLink) : Prop :=
  r.sourceMarker = .fromTg → ∀ message, r.maxMessageId = some message →
    ∃ b ∈ s.chat, b.messageId = message ∧
      ∃ m, Linked s i m ∧ b.chatId = m.target.maxChatId ∧ JobOf m i b.job

structure Truth (s : State) : Prop where
  entered : Entered s
  passes : Passes s
  carried : Queue.Carried (Named s) s.queue
  found : Found (Named s) s
  made : ∀ a message x, s.queue.attempts.get? a = some x → s.stage a = .created message ∨
    s.stage a = .ended (.delivered (some message)) ∧ x.spec.kind ∈ ownKinds → Made s x message
  rows : ∀ i r, s.map.get? i = some r → RowMade s i r

namespace Truth

variable {s t : State} {e : Event}

theorem start : Truth system.start where
  entered a ha := absurd rfl ha
  passes p y hy := by simp [system] at hy
  carried := .start _
  found a send h := by cases h
  made a message x hx := by simp [system] at hx
  rows i r hr := by simp [system] at hr

theorem named_mono (hs : Truth s) (h : step s e = some t) (kind : JobKind) (key : String)
    (payload : Payload) (hn : Named s kind key payload) : Named t kind key payload := by
  refine ⟨hn.1, fun hkey => (hn.2 hkey).mono fun i m hl => ?_⟩
  exact hl.step hs.passes h

theorem step_carried (hs : Truth s) (h : step s e = some t) :
    Queue.Carried (Named t) t.queue := by
  obtain ⟨hmoved, hqueue⟩ := step_moved h
  have hnamed := hs.named_mono h
  have hbefore := hs.carried.mono hnamed
  cases hqe : s.queueEvent? e with
  | none =>
    rw [hqe] at hqueue
    rw [show t.queue = s.queue from hqueue]
    exact hbefore
  | some qe =>
    rw [hqe] at hqueue hmoved
    refine hbefore.step hqueue (fun kind key payload hn => ⟨hn.1, fun _ link hlink => ?_⟩)
      (fun spec hspec => hnamed _ _ _ (hmoved.files hs.passes hs.carried hspec))
      fun kind key old payload hre hn => ?_
    · simp [Payload.int?, Payload.get, Payload.cleared] at hlink
    · obtain ⟨a, x, d, text, send, hx, rfl, rfl⟩ := hmoved.rewrites hre
      refine ⟨hn.1, fun hkey => ?_⟩
      obtain ⟨x', d', kind', hx', hd', hnames⟩ := hs.found a send hx.stage
      obtain rfl := Option.some.inj (hx.attempt.symm.trans hx')
      obtain rfl := Option.some.inj (hx.read.symm.trans hd')
      exact ((hnamed _ _ _ hnames).2 hkey).withText text

theorem step_made (hs : Truth s) (h : step s e = some t) {a : Nat} {message : Int}
    {y : Attempt} (hy : t.queue.attempts.get? a = some y)
    (hstage : t.stage a = .created message ∨
      t.stage a = .ended (.delivered (some message)) ∧ y.spec.kind ∈ ownKinds) :
    Made t y message := by
  have hmoved := (step_moved h).1
  have hold (hsame : s.stage a = .created message ∨
      s.stage a = .ended (.delivered (some message)) ∧ y.spec.kind ∈ ownKinds) :
      Made t y message := by
    have hstarted : s.stage a ≠ .begun := by
      rcases hsame with hc | ⟨hc, -⟩ <;> rw [hc] <;> exact nofun
    obtain ⟨x, hx, -⟩ := hs.entered a hstarted
    have hspec := attempt_before h hx hy
    rw [hspec] at hsame
    obtain ⟨hkind, b, hb, hid, hjob, hchat⟩ := hs.made a message x hx hsame
    obtain ⟨b', hb', hid', hjob', hchat'⟩ := hmoved.chat hb
    rw [Made, hspec]
    exact ⟨hkind, b', hb', hid'.trans hid, hjob'.trans hjob, by rw [hchat', hchat]⟩
  have hchange := hmoved.stage a
  rw [show t.toWorld.stage a = t.stage a from rfl] at hchange
  generalize hnew : t.stage a = stage at hchange hstage
  cases hchange with
  | same => exact hold hstage
  | posted hx hkind hchat hw =>
    rcases hstage with hc | ⟨hc, -⟩ <;> cases hc
    obtain ⟨b, hb, hid, hjob, hbchat⟩ := hw
    have hspec := attempt_before h hx.attempt hy
    rw [Made, hspec]
    exact ⟨hkind, b, hb, hid, hjob, by rw [hbchat, hchat]⟩
  | answered hx =>
    rcases hstage with hc | ⟨hc, -⟩ <;> cases hc
    exact hold (.inl hx.stage)
  | foreign he hkind =>
    obtain ⟨x, hx, -⟩ := sender_inSender h he
    rcases hstage with hc | ⟨-, hown⟩
    · cases hc
    · rw [attempt_before h hx hy] at hown
      exact absurd hown (hkind x hx)
  | found => rcases hstage with hc | ⟨hc, -⟩ <;> cases hc
  | plain hp => rcases hstage with rfl | ⟨rfl, -⟩ <;> cases hp

/-- The id that is written to a row is that of a message its own job has made. -/
theorem step_rows (hs : Truth s) (h : step s e = some t) {i : Nat} {r' : MessageLink}
    (hr' : t.map.get? i = some r') : RowMade t i r' := by
  intro hmarker message hmessage
  have hmoved := (step_moved h).1
  have hkeep : (∃ b ∈ s.chat, b.messageId = message ∧
      ∃ m, Linked s i m ∧ b.chatId = m.target.maxChatId ∧ JobOf m i b.job) →
      ∃ b ∈ t.chat, b.messageId = message ∧
        ∃ m, Linked t i m ∧ b.chatId = m.target.maxChatId ∧ JobOf m i b.job := by
    rintro ⟨b, hb, hid, m, hm, hchat, hjob⟩
    obtain ⟨b', hb', hid', hjob', hchat'⟩ := hmoved.chat hb
    exact ⟨b', hb', hid'.trans hid, m, hm.step hs.passes h, hchat'.trans hchat, hjob' ▸ hjob⟩
  have hlink := hmoved.link i
  unfold LinkAfter at hlink
  split at hlink
  · next r hr =>
    obtain ⟨r'', hr'', hc⟩ | ⟨hgone, -⟩ := hlink
    · obtain rfl := Option.some.inj (hr''.symm.trans hr')
      cases hc with
      | same => exact hkeep (hs.rows i r hr hmarker message hmessage)
      | telegram => exact hkeep (hs.rows i r hr hmarker message hmessage)
      | owner => exact hkeep (hs.rows i r hr hmarker message hmessage)
      | @answered a x made link hx hlink hi hfree =>
        obtain rfl := Option.some.inj hmessage
        -- The payload of the attempt names the row that is written.
        obtain ⟨hkey, hnames⟩ := hs.carried.attempt a x hx.attempt
        obtain ⟨⟨hown, hcreating⟩, b, hb, hid, hjob, hbchat⟩ :=
          hs.made a made x hx.attempt (.inl hx.stage)
        obtain ⟨m, hm, hchat, hof⟩ := hnames (hkey hown hcreating) link hlink
        subst hi
        refine hkeep ⟨b, hb, hid, m, hm, ?_, hjob ▸ hof⟩
        exact Option.some.inj (hbchat.symm.trans hchat)
    · rw [show t.toWorld.map = t.map from rfl, hr'] at hgone
      cases hgone
  · next hr =>
    cases hlink r' hr' with
    | claimed => cases hmarker
    | recorded => cases hmessage

theorem step (hs : Truth s) (h : Owner.step s e = some t) : Truth t where
  entered := hs.entered.step h
  passes := hs.passes.step h
  carried := hs.step_carried h
  found := hs.found.step hs.carried (hs.named_mono h) h
  made _ _ _ hy hstage := hs.step_made h hy hstage
  rows _ _ hr := hs.step_rows h hr

end Truth

theorem truth {s : State} {ok : State → Event → Prop} (h : Run.Reaches system ok s) : Truth s :=
  h.invariant Truth.start fun _ _ _ hs _ hst => hs.step hst

/-! ## whose row it is -/

/-- The row was written for this message. -/
structure RowOf (r : MessageLink) (m : Message) : Prop where
  bridge : r.bridgeName = m.target.name
  chat : r.maxChatId = m.target.maxChatId
  bot : r.telegramBotId = m.target.botId
  account : r.telegramOwnerAccountId = m.account
  /-- The id under which the owner sees the message. -/
  owner : r.telegramOwnerMessageId = m.intake.telegramOwnerMessageId
  /-- The id under which the bot sees it. -/
  telegram : ∀ id, m.intake.telegramMessageId = some id → r.telegramMessageId = some id

/-- Two messages of one account under one id, or parts of one album. -/
def Kin (m m' : Message) : Prop :=
  (∃ account, m.account = some account ∧ m'.account = some account) ∧
    (m.messageId = m'.messageId ∨ ∃ group, m.album = some group ∧ m'.album = some group)

/-- A row of the owner's, written for this message or for kin of it, by a pass that has it. -/
def Belongs (s : State) (i : Nat) (m : Message) : Prop :=
  ∃ r m', s.map.get? i = some r ∧ r.sourceMarker = .fromTg ∧ RowOf r m' ∧ Linked s i m' ∧
    (m = m' ∨ Kin m m')

/-- What was handed over under one id of an account is in one album, or in none. -/
def Grouped (s : State) : Prop :=
  ∀ p y q y' account, s.passes.get? p = some y → s.passes.get? q = some y' →
    y.message.account = some account → y'.message.account = some account →
      y.message.messageId = y'.message.messageId → y.message.album = y'.message.album

/-- Kin of kin is kin. -/
theorem Grouped.kin {s : State} (hs : Grouped s) {i : Nat} {m m' m'' : Message} (h : Kin m m')
    (h' : Kin m' m'') (hm : ∃ p y, s.passes.get? p = some y ∧ y.message = m)
    (hm' : Linked s i m') (hm'' : Linked s i m'') : Kin m m'' := by
  obtain ⟨⟨account, ha, ha'⟩, hsame⟩ := h
  obtain ⟨⟨account', hb', hb''⟩, hsame'⟩ := h'
  obtain rfl : account = account' := Option.some.inj (ha'.symm.trans hb')
  obtain ⟨p, y, hy, rfl⟩ := hm
  obtain ⟨p', y', hy', -, rfl⟩ := hm'
  obtain ⟨p'', y'', hy'', -, rfl⟩ := hm''
  refine ⟨⟨account, ha, hb''⟩, ?_⟩
  obtain hid | ⟨group, hg, hg'⟩ := hsame
  · obtain hid' | ⟨group, hg', hg''⟩ := hsame'
    · exact .inl (hid.trans hid')
    · exact .inr ⟨group, (hs _ _ _ _ _ hy hy' ha ha' hid).trans hg', hg''⟩
  · obtain hid' | ⟨group', hg'', hg'''⟩ := hsame'
    · exact .inr ⟨group, hg, (hs _ _ _ _ _ hy' hy'' ha' hb'' hid').symm.trans hg'⟩
    · obtain rfl := Option.some.inj (hg'.symm.trans hg'')
      exact .inr ⟨group, hg, hg'''⟩

structure Owned (s : State) : Prop where
  grouped : Grouped s
  linked : ∀ i m, Linked s i m → Belongs s i m
  rows : ∀ i r, s.map.get? i = some r → r.sourceMarker = .fromTg →
    ∃ m, Linked s i m ∧ RowOf r m
  albums : ∀ k part i, s.albums.get? k = some part → part.linkId = some i →
    scheme part.mediaGroupId = some "own".toList →
      ∃ m, Linked s i m ∧ m.album = some part.mediaGroupId
  placed : ∀ p y account, s.passes.get? p = some y → y.message.account = some account →
    ∀ i r, s.map.get? i = some r → r.sourceMarker = .fromMax →
      ¬(r.telegramOwnerAccountId = some account ∧
        r.telegramOwnerMessageId = some y.message.messageId)

theorem rowOf_newRecord (m : Message) (stamp : Nat) : RowOf (newRecord m.intake stamp) m where
  bridge := rfl
  chat := rfl
  bot := rfl
  account := rfl
  owner := rfl
  telegram _ h := h

/-- What becomes of a row leaves it the row of its message. -/
theorem LinkChange.rowOf {s : State} {i : Nat} {r r' : MessageLink} {e : Event}
    (h : LinkChange s i r e r') (hmarker : r.sourceMarker = .fromTg) {m : Message}
    (hr : RowOf r m) : r'.sourceMarker = .fromTg ∧ RowOf r' m := by
  cases h with
  | same => exact ⟨hmarker, hr⟩
  | telegram hfree =>
    refine ⟨hmarker, { hr with telegram := fun id hid => ?_ }⟩
    rw [hr.telegram id hid] at hfree
    cases hfree
  | owner hf => exact absurd (hf.symm.trans hmarker) nofun
  | answered => exact ⟨hmarker, { hr with }⟩

/-- The account of an album can be read off its name. -/
theorem account_of_album {m m' : Message} {group : String} (h : m.album = some group)
    (h' : m'.album = some group) :
    ∃ account, m.account = some account ∧ m'.account = some account := by
  have hfields : ∀ {m : Message}, m.album = some group → ∃ account peer grouped : Int,
      m.account = some account ∧ keyFields group =
        ["own".toList, (toString account).toList, (toString peer).toList,
          (toString grouped).toList] := by
    intro m h
    unfold Message.album at h
    split at h
    · next account caption items sources mtproto grouped haccount hcontent =>
      obtain rfl := Option.some.inj h
      refine ⟨account, m.target.botId, grouped, haccount, ?_⟩
      have hname : ownerAlbumNamespace account m.target.botId grouped = "own" ++ ":" ++
          toString account ++ ":" ++ toString m.target.botId ++ ":" ++ toString grouped := rfl
      rw [hname, keyFields_append, keyFields_append, keyFields_append, keyFields_int,
        keyFields_int, keyFields_int, keyFields_plain (by decide)]
      rfl
    · cases h
  obtain ⟨a, p, g, ha, hf⟩ := hfields h
  obtain ⟨a', p', g', ha', hf'⟩ := hfields h'
  rw [hf] at hf'
  obtain ⟨-, hsame, -⟩ := by simpa only [List.cons.injEq] using hf'
  exact ⟨a, ha, by rw [ha', intRepr_injective hsame]⟩

theorem scheme_album {m : Message} {group : String} (h : m.album = some group) :
    scheme group = some "own".toList := by
  unfold Message.album at h
  split at h
  · next account caption items sources mtproto grouped haccount hcontent =>
    obtain rfl := Option.some.inj h
    have hname : ownerAlbumNamespace account m.target.botId grouped = "own" ++ ":" ++
        (toString account ++ ":" ++ toString m.target.botId ++ ":" ++ toString grouped) := by
      change "own:" ++ toString account ++ ":" ++ toString m.target.botId ++ ":" ++
        toString grouped = _
      simp [String.append_assoc]
    rw [hname]
    exact scheme_append (by decide) _
  · cases h

theorem scheme_expected (link : Nat) :
    scheme (expectedAlbumNamespace link) = some "max".toList := by
  have hname : expectedAlbumNamespace link = "max" ++ ":" ++ toString link := by
    change "max:" ++ toString link = _
    simp
  rw [hname]
  exact scheme_append (by decide) _

namespace Owned

variable {s t : State} {e : Event}

theorem start : Owned system.start where
  grouped p y q y' account hy := by simp [system] at hy
  linked i m h := by
    obtain ⟨p, y, hy, -⟩ := h
    simp [system] at hy
  rows i r hr := by simp [system] at hr
  albums k part i hk := by simp [system] at hk
  placed p y account hy := by simp [system] at hy

/-- A row of the owner's stays where it is, and stays the row of its message. -/
theorem row_stays (h : step s e = some t) {i : Nat} {r : MessageLink}
    (hr : s.map.get? i = some r) (hmarker : r.sourceMarker = .fromTg) :
    ∃ r', t.map.get? i = some r' ∧ r'.sourceMarker = .fromTg ∧
      ∀ m, RowOf r m → RowOf r' m := by
  have hlink := (step_moved h).1.link i
  unfold LinkAfter at hlink
  rw [hr] at hlink
  obtain ⟨r', hr', hc⟩ | ⟨-, hmax, -⟩ := hlink
  · refine ⟨r', hr', ?_, fun m hm => (hc.rowOf hmarker hm).2⟩
    cases hc with
    | owner hf => exact absurd (hf.symm.trans hmarker) (by decide)
    | _ => exact hmarker
  · exact absurd (hmax.symm.trans hmarker) (by decide)

theorem belongs_stays (hp : Passes s) (h : step s e = some t) {i : Nat} {m : Message}
    (hb : Belongs s i m) : Belongs t i m := by
  obtain ⟨r, m', hr, hmarker, hrow, hlinked, hkin⟩ := hb
  obtain ⟨r', hr', hmarker', hkeep⟩ := row_stays h hr hmarker
  exact ⟨r', m', hr', hmarker', hkeep m' hrow, hlinked.step hp h, hkin⟩

/-- What an event of the world alone leaves. -/
theorem step_quiet {w : World} (hmove : s.move e = s.quiet w) (h : step s e = some t) :
    t.toWorld = w := by
  rw [Owner.step, hmove, State.quiet] at h
  split at h
  · next heq =>
    split at heq
    · cases heq
    · cases heq
  · next w' heq =>
    split at heq
    · obtain rfl := (Prod.mk.inj (Option.some.inj heq)).2
      rw [← Option.some.inj h]
    · cases heq
  · cases h

/-- `_record_intake` writes a row and gives it to the pass, -/
theorem record_writes {p : Nat} {y : Pass} {map : MessageMap} (h : step s (.record p) = some t)
    (hy : s.passes.get? p = some y) (hp : y.progress = .recording)
    (hm : s.map.recordFromTelegram y.message.intake s.queue.now = some map) :
    t.map = map ∧ t.passes.get? p = some (y.mapped s.map.next) := by
  have hmove : s.move (.record p) =
      s.quiet { s.setPass p fun _ => y.mapped s.map.next with map } := by
    simp only [State.move, State.ofPass, hy, hp, State.record, hm, if_true]
  have hw := step_quiet hmove h
  rw [show t.map = t.toWorld.map from rfl, show t.passes = t.toWorld.passes from rfl, hw]
  refine ⟨rfl, ?_⟩
  rw [State.setPass, Table.get?_modify_self, hy]
  rfl

/-- or writes nothing. -/
theorem record_refused {p : Nat} {y : Pass} (h : step s (.record p) = some t)
    (hy : s.passes.get? p = some y) (hp : y.progress = .recording)
    (hm : s.map.recordFromTelegram y.message.intake s.queue.now = none) : t.map = s.map := by
  have hmove : s.move (.record p) = s.quiet (s.setProgress p .dead) := by
    simp only [State.move, State.ofPass, hy, hp, State.record, hm, if_true]
  rw [show t.map = t.toWorld.map from rfl, step_quiet hmove h]
  rfl

/-- An event that hands a message over leaves the mapping alone. -/
theorem arrive_map {m : Message} (h : step s (.arrive m) = some t) : t.map = s.map := by
  have hmoved := (step_moved h).1
  generalize s.queueEvent? (.arrive m) = qe at hmoved
  rw [show t.map = t.toWorld.map from rfl]
  generalize t.toWorld = w at hmoved ⊢
  cases hmoved with
  | arrived => rfl
  | passed => rfl
  | albums => rfl
  | map he => cases he

/-- What a pass is given is a row of its message's kin. -/
theorem given (hs : Owned s) (hpasses : Passes s) (h : step s e = some t) {p i : Nat} {y : Pass}
    (hy : s.passes.get? p = some y) (hl : RowGiven s p y e i) : Belongs t i y.message := by
  cases hl with
  | @located link group hp hg hl =>
    refine belongs_stays hpasses h ?_
    obtain ⟨⟨k, part⟩, hfirst, hpart⟩ := Option.bind_eq_some_iff.mp hl
    obtain ⟨hget, hcond⟩ := Table.first_some hfirst
    obtain ⟨hgroup, -⟩ := Bool.and_eq_true_iff.mp hcond
    obtain rfl := eq_of_beq hgroup
    obtain ⟨m, hm, halbum⟩ := hs.albums k part i hget hpart (scheme_album hg)
    obtain ⟨r, m', hr, hmarker, hrow, hm', hkin⟩ := hs.linked i m hm
    have hhead : Kin y.message m := ⟨account_of_album hg halbum, .inr ⟨_, hg, halbum⟩⟩
    refine ⟨r, m', hr, hmarker, hrow, hm', .inr ?_⟩
    obtain rfl | hkin := hkin
    · exact hhead
    · exact hs.grouped.kin hhead hkin ⟨p, y, hy, rfl⟩ hm hm'
  | @locatedHead link account r hp ha hl =>
    refine belongs_stays hpasses h ?_
    obtain ⟨hget, hcond⟩ := Table.first_some hl
    obtain ⟨haccount, hmessage⟩ : r.telegramOwnerAccountId = some account ∧
        r.telegramOwnerMessageId = some y.message.messageId := by simpa using hcond
    -- Not a message from MAX: an id of the owner's names one message.
    have hmarker : r.sourceMarker = .fromTg := by
      cases hm : r.sourceMarker with
      | fromTg => rfl
      | fromMax => exact absurd ⟨haccount, hmessage⟩ (hs.placed p y account hy ha i r hget hm)
    obtain ⟨m, hm, hrow⟩ := hs.rows i r hget hmarker
    have hmine : m.account = some account := hrow.account.symm.trans haccount
    have hid : y.message.messageId = m.messageId := by
      have howner := hmessage.symm.trans hrow.owner
      simpa [Message.intake, hmine] using howner
    exact ⟨r, m, hget, hmarker, hrow, hm, .inr ⟨⟨account, ha, hmine⟩, .inl hid⟩⟩
  | @recorded map hp hm =>
    obtain ⟨hwritten, hpass⟩ := record_writes h hy hp hm
    have hmap : t.map = s.map.insert (newRecord y.message.intake s.queue.now) :=
      hwritten.trans (tryInsert_eq_some hm)
    refine ⟨newRecord y.message.intake s.queue.now, y.message, ?_, rfl, rowOf_newRecord _ _,
      ⟨p, _, hpass, rfl, rfl⟩, .inl rfl⟩
    rw [hmap, Table.get?_insert, if_pos rfl]

theorem step_grouped (hs : Owned s) (h : step s e = some t) : Grouped t := by
  intro p y' q z' account hy' hz' ha hb hid
  have hkeeps : ∀ {p : Nat} {y y' : Pass}, PassChange s p y e (s.queueEvent? e) y' →
      y'.message = y.message := by
    intro p y y' hc
    generalize s.queueEvent? e = qe at hc
    cases hc <;> rfl
  -- What is handed over now is in the album of what was handed over before.
  have hnew : ∀ {m : Message} {q : Nat} {z : Pass}, s.admits m = true →
      s.passes.get? q = some z → m.account = some account → z.message.account = some account →
        m.messageId = z.message.messageId → m.album = z.message.album := by
    intro m q z hadmits hz ha hb hid
    by_contra hne
    rw [State.admits, ha] at hadmits
    have hregrouped : s.regrouped account m = true :=
      Table.holdsOf_iff.mpr ⟨q, z, hz, by simp [hb, hid, Ne.symm hne]⟩
    simp [hregrouped] at hadmits
  obtain ⟨y, hy, hc⟩ | ⟨m, rfl, hadmits, rfl⟩ := pass_from h hy'
  · rw [hkeeps hc] at ha hid ⊢
    obtain ⟨z, hz, hd⟩ | ⟨m, rfl, hadmits, rfl⟩ := pass_from h hz'
    · rw [hkeeps hd] at hb hid ⊢
      exact hs.grouped p y q z account hy hz ha hb hid
    · exact (hnew hadmits hy hb ha hid.symm).symm
  · obtain ⟨z, hz, hd⟩ | ⟨m', he, -, rfl⟩ := pass_from h hz'
    · rw [hkeeps hd] at hb hid ⊢
      exact hnew hadmits hz ha hb hid
    · cases he
      rfl

theorem step_linked (hs : Owned s) (hp : Passes s) (h : step s e = some t) {i : Nat}
    {m : Message} (hl : Linked t i m) : Belongs t i m := by
  obtain ⟨p, y', hy', hlink, rfl⟩ := hl
  obtain ⟨y, hy, hc⟩ | ⟨m, -, -, rfl⟩ := pass_from h hy'
  · have hold (hsame : y'.link = y.link) (hmessage : y'.message = y.message) :
        Belongs t i y'.message := by
      rw [hmessage]
      exact belongs_stays hp h (hs.linked i _ ⟨p, y, hy, hsame ▸ hlink, rfl⟩)
    generalize s.queueEvent? e = qe at hc
    cases hc with
    | mapped hl =>
      have hgiven := hs.given hp h hy hl
      obtain rfl := Option.some.inj hlink
      exact hgiven
    | _ => exact hold rfl rfl
  · cases hlink

theorem step_rows (hs : Owned s) (hp : Passes s) (h : step s e = some t) {i : Nat}
    {r' : MessageLink} (hr' : t.map.get? i = some r') (hmarker : r'.sourceMarker = .fromTg) :
    ∃ m, Linked t i m ∧ RowOf r' m := by
  have hlink := (step_moved h).1.link i
  unfold LinkAfter at hlink
  split at hlink
  · next r hr =>
    obtain ⟨r'', hr'', hc⟩ | ⟨hgone, -⟩ := hlink
    · obtain rfl := Option.some.inj (hr''.symm.trans hr')
      have hold : r.sourceMarker = .fromTg := by
        cases hc with
        | owner => exact hmarker
        | _ => exact hmarker
      obtain ⟨m, hm, hrow⟩ := hs.rows i r hr hold
      exact ⟨m, hm.step hp h, (hc.rowOf hold hrow).2⟩
    · rw [show t.toWorld.map = t.map from rfl, hr'] at hgone
      cases hgone
  · next hr =>
    cases hlink r' hr' with
    | claimed => cases hmarker
    | @recorded p y hy hp' hi =>
      refine ⟨y.message, ?_, rowOf_newRecord _ _⟩
      cases hm : s.map.recordFromTelegram y.message.intake s.queue.now with
      | some map => exact ⟨p, _, (record_writes h hy hp' hm).2, congrArg some hi.symm, rfl⟩
      | none =>
        rw [record_refused h hy hp' hm, hr] at hr'
        cases hr'

/-- How the aliases of an album change. -/
inductive PartChange (s : State) (part : MediaGroupPart) : MediaGroupPart → Prop
  | same : PartChange s part part
  | owner {account message : Int} :
      PartChange s part { part with telegramOwnerAccountId := some account,
                                    telegramOwnerMessageId := some message }
  | bound {p link : Nat} {y : Pass} (hy : s.passes.get? p = some y) (hlink : y.link = some link)
      (hg : y.message.album = some part.mediaGroupId) :
      PartChange s part { part with linkId := some link }

theorem addPart_get? {g : MediaGroups} {p q : MediaGroupPart} {k : Nat}
    (h : (g.addPart p).get? k = some q) : g.get? k = some q ∨ q = p := by
  unfold MediaGroups.addPart at h
  split at h
  · exact .inl h
  · rw [Table.get?_insert] at h
    split at h
    · exact .inr (Option.some.inj h).symm
    · exact .inl h

/-- **A part of an album after an event.** -/
theorem part_from {k : Nat} {part' : MediaGroupPart} {qe : Option Queue.Event} {w : World}
    (h : Moved s e qe w) (hpart : w.albums.get? k = some part') :
    (∃ part, s.albums.get? k = some part ∧ PartChange s part part') ∨
      part'.linkId = none ∨ scheme part'.mediaGroupId = some "max".toList := by
  have hsame (hw : w.albums = s.albums) :
      (∃ part, s.albums.get? k = some part ∧ PartChange s part part') ∨
        part'.linkId = none ∨ scheme part'.mediaGroupId = some "max".toList := by
    rw [hw] at hpart
    exact .inl ⟨part', hpart, .same⟩
  cases h with
  | @bound p link y group hy hp hg hl =>
    have hpart : (s.albums.bindLink group link).get? k = some part' := hpart
    rw [MediaGroups.bindLink, Table.get?_update] at hpart
    obtain ⟨part, hk, hnew⟩ := Option.map_eq_some_iff.mp hpart
    refine .inl ⟨part, hk, ?_⟩
    split at hnew
    · next hcond =>
      obtain ⟨hgroup, -⟩ := Bool.and_eq_true_iff.mp hcond
      obtain rfl := eq_of_beq hgroup
      rw [← hnew]
      exact .bound hy hl hg
    · rw [← hnew]
      exact .same
  | albums he =>
    cases he with
    | owned hplaced hsingle =>
      obtain hold | rfl := addPart_get? hpart
      · exact .inl ⟨part', hold, .same⟩
      · exact .inr (.inl rfl)
    | expected =>
      obtain hold | rfl := addPart_get? hpart
      · exact .inl ⟨part', hold, .same⟩
      · exact .inr (.inr (scheme_expected _))
    | @seen k' account message p hp hdir hw =>
      have hpart : (s.albums.attachOwnerMessage k' account message).get? k = some part' := hpart
      unfold MediaGroups.attachOwnerMessage at hpart
      rw [hp] at hpart
      dsimp only at hpart
      split at hpart
      · rw [Table.get?_modify] at hpart
        split at hpart
        · next hk =>
          subst hk
          rw [hp] at hpart
          obtain rfl := Option.some.inj hpart
          exact .inl ⟨p, hp, .owner⟩
        · exact .inl ⟨part', hpart, .same⟩
      · exact .inl ⟨part', hpart, .same⟩
    | cleared hf =>
      have hpart : (s.albums.clearLink _).get? k = some part' := hpart
      rw [MediaGroups.clearLink, Table.get?_delete, Option.filter_eq_some_iff] at hpart
      exact .inl ⟨part', hpart.1, .same⟩
  | queue =>
    refine hsame ?_
    unfold State.afterQueue
    split <;> rfl
  | absorbed | cancelled =>
    refine hsame ?_
    split <;> rfl
  | _ => exact hsame rfl

theorem step_albums (hs : Owned s) (hp : Passes s) (h : step s e = some t) {k i : Nat}
    {part' : MediaGroupPart} (hpart : t.albums.get? k = some part') (hlink : part'.linkId = some i)
    (hown : scheme part'.mediaGroupId = some "own".toList) :
    ∃ m, Linked t i m ∧ m.album = some part'.mediaGroupId := by
  obtain ⟨part, hk, hc⟩ | hnone | hmax := part_from (step_moved h).1 hpart
  · have hold (hsame : part.linkId = some i) (hgroup : part.mediaGroupId = part'.mediaGroupId) :
        ∃ m, Linked t i m ∧ m.album = some part'.mediaGroupId := by
      obtain ⟨m, hm, halbum⟩ := hs.albums k part i hk hsame (hgroup ▸ hown)
      exact ⟨m, hm.step hp h, halbum.trans (congrArg some hgroup)⟩
    cases hc with
    | same => exact hold hlink rfl
    | owner => exact hold hlink rfl
    | @bound p link y hy hy' hg =>
      obtain rfl := Option.some.inj hlink
      exact ⟨y.message, Linked.step ⟨p, y, hy, hy', rfl⟩ hp h, hg⟩
  · rw [hnone] at hlink
    cases hlink
  · rw [hmax] at hown
    exact absurd hown (by simp)

/-- An id that the owner wrote under is never written to a row from MAX. -/
theorem step_placed (hs : Owned s) (h : step s e = some t) {p : Nat} {y' : Pass} {account : Int}
    (hy' : t.passes.get? p = some y') (haccount : y'.message.account = some account) {i : Nat}
    {r' : MessageLink} (hr' : t.map.get? i = some r') (hmarker : r'.sourceMarker = .fromMax) :
    ¬(r'.telegramOwnerAccountId = some account ∧
      r'.telegramOwnerMessageId = some y'.message.messageId) := by
  rintro ⟨haccount', hmessage⟩
  obtain ⟨y, hy, hmine⟩ | ⟨m, rfl, hadmits, rfl⟩ := pass_from h hy'
  · have hsame : y'.message = y.message := by
      generalize s.queueEvent? e = qe at hmine
      cases hmine <;> rfl
    rw [hsame] at haccount hmessage
    have hold := fun r (hr : s.map.get? i = some r) hm =>
      hs.placed p y account hy haccount i r hr hm
    have hlink := (step_moved h).1.link i
    unfold LinkAfter at hlink
    split at hlink
    · next r hr =>
      obtain ⟨r'', hr'', hc⟩ | ⟨hgone, -⟩ := hlink
      · obtain rfl := Option.some.inj (hr''.symm.trans hr')
        cases hc with
        | same => exact hold r hr hmarker ⟨haccount', hmessage⟩
        | telegram => exact hold r hr hmarker ⟨haccount', hmessage⟩
        | answered => exact hold r hr hmarker ⟨haccount', hmessage⟩
        | @owner _ account' message hf hwrote =>
          obtain rfl := Option.some.inj haccount'
          obtain rfl := Option.some.inj hmessage
          rw [State.ownerWrote, Bool.or_eq_false_iff] at hwrote
          have hheld : (s.passes.holdsOf fun _ y' => y'.message.account == some account' &&
              y'.message.messageId == y.message.messageId) = true :=
            Table.holdsOf_iff.mpr ⟨p, y, hy, by simp [haccount]⟩
          rw [hwrote.1] at hheld
          cases hheld
      · rw [show t.toWorld.map = t.map from rfl, hr'] at hgone
        cases hgone
    · next hr =>
      cases hlink r' hr' with
      | claimed => cases haccount'
      | recorded => cases hmarker
  · -- A new pass: what the bridge put there is not handed to an intake.
    rw [arrive_map h] at hr'
    have haccount : m.account = some account := haccount
    rw [State.admits, haccount] at hadmits
    have hheld : s.bridgePlaced account m.messageId = true := by
      rw [State.bridgePlaced, Bool.or_eq_true]
      exact .inl (Table.holdsOf_iff.mpr ⟨i, r', hr', by simp [hmarker, haccount', hmessage, Pass.begin]⟩)
    simp [hheld] at hadmits

theorem step (hs : Owned s) (hp : Passes s) (h : Owner.step s e = some t) : Owned t where
  grouped := hs.step_grouped h
  linked _ _ hl := hs.step_linked hp h hl
  rows _ _ hr hmarker := hs.step_rows hp h hr hmarker
  albums _ _ _ hk hlink hown := hs.step_albums hp h hk hlink hown
  placed _ _ _ hy haccount _ _ hr hmarker := hs.step_placed h hy haccount hr hmarker

end Owned

theorem owned {s : State} {ok : State → Event → Prop} (h : Run.Reaches system ok s) : Owned s :=
  h.invariant_of (fun _ hr => (truth hr).passes) .start fun _ _ _ hp hs _ hst => hs.step hp hst

/-! ## the result -/

/-- **Whose message a row names.**  In every run, the MAX message in a row of the owner's was
created, in its chat, by a job of a message `m` that was handed to an intake and whose pass has
this row; and `m` is the message `m'` the row was written for, another one under its id, or another
part of its album. -/
theorem mapped_to_own {s : State} (h : Run.Reaches system Run.anyStep s) {i : Nat}
    {r : MessageLink} (hr : s.map.get? i = some r) (hmarker : r.sourceMarker = .fromTg)
    {message : Int} (hmax : r.maxMessageId = some message) :
    ∃ b ∈ s.chat, b.messageId = message ∧
      ∃ m m', Linked s i m ∧ JobOf m i b.job ∧ b.chatId = m.target.maxChatId ∧
        Linked s i m' ∧ RowOf r m' ∧ (m = m' ∨ Kin m m') := by
  obtain ⟨b, hb, hid, m, hm, hchat, hjob⟩ := (truth h).rows i r hr hmarker message hmax
  obtain ⟨r', m', hr', -, hrow, hm', hkin⟩ := (owned h).linked i m hm
  obtain rfl := Option.some.inj (hr.symm.trans hr')
  exact ⟨b, hb, hid, m, m', hm, hjob, hchat, hm', hrow, hkin⟩

/-- A text of the owner's, as their own session brings it. -/
def ownText : Message where
  target := { name := "bridge", botId := 7, maxChatId := 1 }
  account := some 5
  messageId := 11
  chatId := 7
  ownerChatId := 5
  replyTo := none
  content := .text "hello"

/-- The text is written down, sent and answered. -/
def ownTextSent : List Event :=
  [.queue .requeueSelect, .queue .started, .arrive ownText, .reply 1, .record 1, .submit 1,
   .queue (.check 1), .queue (.claim 1), .queue (.enter 1), .queue (.sending 1), .post 1 900,
   .answer 1]

theorem mapped_to_own_text :
    ∃ (s : State) (b : Bubble) (m m' : Message), b ∈ s.chat ∧ b.messageId = 900 ∧
      Linked s 1 m ∧ JobOf m 1 b.job ∧ b.chatId = m.target.maxChatId ∧ Linked s 1 m' ∧
        (m = m' ∨ Kin m m') := by
  obtain ⟨s, hs, hrow⟩ := Run.Reaches.exists_of_play system (fun _ _ => true) ownTextSent
    (fun s => (s.map.get? 1).any fun r => r.sourceMarker == .fromTg && r.maxMessageId == some 900)
    rfl
  simp only [Option.any_eq_true, Bool.and_eq_true, beq_iff_eq] at hrow
  obtain ⟨r, hr, hmarker, hmax⟩ := hrow
  obtain ⟨b, hb, hid, m, m', hm, hjob, hchat, hm', -, hkin⟩ :=
    mapped_to_own (hs.mono fun _ _ _ => trivial) hr hmarker hmax
  exact ⟨s, b, m, m', hb, hid, hm, hjob, hchat, hm', hkin⟩

end Telemax.Owner
