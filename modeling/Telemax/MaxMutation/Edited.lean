import Telemax.MaxMutation.Removed

/-!
# Telemax.MaxMutation.Edited

What an edit from MAX does in Telegram over all its attempts.  It writes into one message of its
target and into no other, creates and removes none, and when an attempt ends without an error the
message shows the new body or is gone — also where the job took a text for a caption.  Whatever
earlier attempts have left, an attempt whose calls are all served ends well, unless it is the
owner's session that finds nothing to do.
-/

namespace Telemax.MaxMutation

open Script

/-! ## one call -/

/-- The call writes this body, where the message has this half. -/
structure Writes (i : Ask) (s : Spot) (half : Body → Bool) (text : String) (entities : Value) :
    Prop where
  effect : ∀ c, effect c i = c.write s half text entities
  wrongHalf : ∀ w c b, c s = some b → half b = false → said w c i = .error w.otherHalf

/-- And it is answered as the bot is. -/
structure BotWrites (i : Ask) (s : Spot) (half : Body → Bool) (text : String) (entities : Value) :
    Prop extends Writes i s half text entities where
  said : ∀ w c, said w c i = editSaid w c s half text entities

theorem editSaid_wrongHalf (w : Wording) {c : Chat} {s : Spot} {half : Body → Bool} {b : Body}
    (hb : c s = some b) (hhalf : half b = false) (text : String) (entities : Value) :
    editSaid w c s half text entities = .error w.otherHalf := by
  simp [editSaid, hb, hhalf]

section

variable (bot chat peer message : Int) (text : String) (entities : Value)

theorem writes_editText :
    BotWrites (.editText bot chat message text entities) (.bot bot chat message) (fun b => !b.media)
      text entities where
  effect _ := rfl
  wrongHalf w _ _ hb hhalf := editSaid_wrongHalf w hb hhalf text entities
  said _ _ := rfl

theorem writes_editCaption :
    BotWrites (.editCaption bot chat message text entities) (.bot bot chat message) (·.media)
      text entities where
  effect _ := rfl
  wrongHalf w _ _ hb hhalf := editSaid_wrongHalf w hb hhalf text entities
  said _ _ := rfl

theorem writes_editOwnMessage :
    Writes (.editOwnMessage peer message text entities) (.own peer message) (fun _ => true)
      text entities where
  effect _ := rfl
  wrongHalf _ _ _ _ hhalf := by cases hhalf

end

/-- Only this message was written, with this body. -/
structure Rewritten (s : Spot) (text : String) (entities : Value) (c c' : Chat) : Prop where
  frame : ∀ s', s' ≠ s → c' s' = c s'
  written : c' s = c s ∨ ∃ b, c s = some b ∧ c' s = some { b with text, entities }

/-- The message shows this body, where there is one. -/
def Shows (s : Spot) (text : String) (entities : Value) (c : Chat) : Prop :=
  ∀ b, c s = some b → b.text = text ∧ b.entities = entities

/-- How an edit may end. -/
def EditEnd (s : Spot) (text : String) (entities : Value) (c : Chat)
    (res : Except SendError Unit) : Prop :=
  res = .ok () → Shows s text entities c

section

variable {w : Wording} {s : Spot} {text : String} {entities : Value} {c₀ c : Chat}
variable {half : Body → Bool} {i : Ask}

theorem Rewritten.refl : Rewritten s text entities c c := ⟨fun _ _ => rfl, .inl rfl⟩

theorem Rewritten.write (h : Rewritten s text entities c₀ c) :
    Rewritten s text entities c₀ (c.write s half text entities) := by
  refine ⟨fun s' hne => (Chat.write_ne hne).trans (h.frame s' hne), ?_⟩
  obtain hsame | ⟨b, hb, -, hnew⟩ := c.write_self s half text entities
  · rw [hsame]
    exact h.written
  · right
    obtain hold | ⟨b₀, hb₀, hold⟩ := h.written
    · exact ⟨b, hold ▸ hb, hnew⟩
    · rw [hold] at hb
      obtain rfl := Option.some.inj hb
      exact ⟨b₀, hb₀, hnew⟩

/-- A served call that is answered as done, or as having nothing to do, leaves the body. -/
theorem shows_of_served (hi : Writes i s half text entities)
    (h : said w c i = .ok () ∨
      ∃ e, said w c i = .error e ∧ (classifyTelegram e).outcome = .noOp) :
    Shows s text entities (effect c i) := by
  rw [hi.effect]
  intro b hb
  cases hc : c s with
  | none =>
    simp only [Chat.write, hc] at hb
    cases hb
  | some b₀ =>
    by_cases hhalf : half b₀ = true
    · simp only [Chat.write, hc, hhalf, if_true, Function.update_self, Option.some.injEq] at hb
      exact hb ▸ ⟨rfl, rfl⟩
    · have hform : said w c i = .error w.otherHalf := hi.wrongHalf w c b₀ hc (by simpa using hhalf)
      rw [hform] at h
      obtain hok | ⟨e, he, hnoOp⟩ := h
      · cases hok
      · obtain rfl := Except.error.inj he
        rw [w.otherHalf_form] at hnoOp
        cases hnoOp

/-- Where a call leads: the chat was written at most here, and a good answer shows the body. -/
theorem edit_turn (hi : Writes i s half text entities) (hc : Rewritten s text entities c₀ c)
    (turn : Turn) :
    Rewritten s text entities c₀ ((telegram w).next c turn i) ∧
      (((telegram w).answer c turn i = .ok () ∨ ∃ e, (telegram w).answer c turn i = .error e ∧
        (classifyTelegram e).outcome = .noOp) →
          Shows s text entities ((telegram w).next c turn i)) := by
  have hwritten : Rewritten s text entities c₀ (effect c i) := by
    rw [hi.effect]
    exact hc.write
  cases turn with
  | served => exact ⟨hwritten, shows_of_served hi⟩
  | refused e h =>
    refine ⟨hc, fun hgood => ?_⟩
    obtain hok | ⟨e', he, hnoOp⟩ := hgood
    · cases hok
    · obtain rfl := Except.error.inj he
      simp [hnoOp] at h
  | lost e h applied =>
    refine ⟨?_, fun hgood => ?_⟩
    · cases applied with
      | true => exact hwritten
      | false => exact hc
    · obtain hok | ⟨e', he, hnoOp⟩ := hgood
      · cases hok
      · obtain rfl := Except.error.inj he
        rw [h] at hnoOp
        cases hnoOp

/-! ## one attempt -/

theorem afterEdit_survives {what : String} {other : Option (Job Unit)}
    {r : Except TelegramError Unit} (hc : Rewritten s text entities c₀ c)
    (hgood : (r = .ok () ∨ ∃ e, r = .error e ∧ (classifyTelegram e).outcome = .noOp) →
      Shows s text entities c)
    (hother : ∀ o, other = some o → Survives (telegram w) (Rewritten s text entities c₀) c o
      (EditEnd s text entities)) :
    Survives (telegram w) (Rewritten s text entities c₀) c (afterEdit what other r)
      (EditEnd s text entities) := by
  have hfail : ∀ e : SendError, Survives (telegram w) (Rewritten s text entities c₀) c
      (throw e : Job Unit) (EditEnd s text entities) := fun e => ⟨hc, fun h => by cases h⟩
  cases r with
  | ok u => exact ⟨hc, fun _ => hgood (.inl rfl)⟩
  | error e =>
    simp only [afterEdit]
    split
    · next hnoOp => exact ⟨hc, fun _ => hgood (.inr ⟨e, rfl, hnoOp⟩)⟩
    · exact hother _ rfl
    · exact hfail _
    · exact hfail _
    · exact hfail _

/-- **One change, tried on one half and perhaps on the other.** -/
theorem mutate_survives {what : String} {otherwise : Option Ask}
    (hi : Writes i s half text entities)
    (ho : ∀ o, otherwise = some o → ∃ half', Writes o s half' text entities)
    (hc : Rewritten s text entities c₀ c) :
    Survives (telegram w) (Rewritten s text entities c₀) c (mutate what i otherwise)
      (EditEnd s text entities) := by
  refine ⟨hc, fun _ turn => ?_⟩
  obtain ⟨hwritten, hgood⟩ := edit_turn (w := w) hi hc turn
  refine afterEdit_survives hwritten hgood fun o hsome => ?_
  obtain ⟨other, rfl, rfl⟩ := Option.map_eq_some_iff.mp hsome
  obtain ⟨half', ho'⟩ := ho other rfl
  refine ⟨hwritten, fun _ turn' => ?_⟩
  obtain ⟨hwritten', hgood'⟩ := edit_turn (w := w) ho' hwritten turn'
  exact afterEdit_survives hwritten' hgood' fun o h => by cases h

/-- The message that holds the text, where the job has one. -/
def editSpots (d : Durable) (payload : Payload) : List Spot :=
  ((targetOf d payload).map fun t => t.spot t.holder).toList

/-- The edit of a target. -/
theorem editTarget_survives (connected : Bool) (t : MaxTarget) (text : String) (entities : Value)
    (c : Chat) :
    Survives (telegram w) (Rewritten (t.spot t.holder) text entities c) c
      (editTarget connected t text entities) (EditEnd (t.spot t.holder) text entities) := by
  unfold editTarget
  split
  · next howner =>
    have hspot : t.spot t.holder = .own t.botId t.holder := by simp only [MaxTarget.spot, howner]
    rw [hspot]
    split
    · refine mutate_survives (writes_editOwnMessage _ _ _ _) ?_ .refl
      exact fun o h => by cases h
    · exact ⟨.refl, fun h => by cases h⟩
  · next hbot =>
    have hspot : t.spot t.holder = .bot t.botId t.chatId t.holder := by
      simp only [MaxTarget.spot, hbot]
    rw [hspot]
    have hasText := (writes_editText t.botId t.chatId t.holder text entities).toWrites
    have hasCaption := (writes_editCaption t.botId t.chatId t.holder text entities).toWrites
    dsimp only
    split
    · refine mutate_survives hasCaption (fun o h => ?_) .refl
      exact Option.some.inj h ▸ ⟨_, hasText⟩
    · refine mutate_survives hasText (fun o h => ?_) .refl
      exact Option.some.inj h ▸ ⟨_, hasCaption⟩

theorem Rewritten.within (h : Rewritten s text entities c₀ c) : Within [s] c₀ c := by
  refine ⟨fun s' hs' => h.frame s' (by simpa using hs'), fun s' hs' => ?_⟩
  by_cases hne : s' = s
  · subst hne
    obtain hsame | ⟨b, hb, -⟩ := h.written
    · rw [hsame, hs']
    · rw [hs'] at hb
      cases hb
  · rw [h.frame s' hne, hs']

/-- The message shows what the payload says, in the rendering for its author. -/
def ShowsEdit (d : Durable) (payload : Payload) (c : Chat) : Prop :=
  ∀ t, targetOf d payload = some t → (bodyFor payload t.authorship).1 ≠ "" →
    Shows (t.spot t.holder) (bodyFor payload t.authorship).1 (bodyFor payload t.authorship).2 c

/-- No message is created or removed. -/
def SameMessages (c c' : Chat) : Prop := ∀ s, (c' s).isSome = (c s).isSome

theorem Rewritten.sameMessages (h : Rewritten s text entities c₀ c) : SameMessages c₀ c := by
  intro s'
  by_cases hne : s' = s
  · subst hne
    obtain hsame | ⟨b, hb, hnew⟩ := h.written
    · rw [hsame]
    · rw [hb, hnew]
      rfl
  · rw [h.frame s' hne]

/-- `resolve_max_edit` as a whole. -/
theorem resolveMaxEdit_survives (d : Durable) (connected : Bool) (payload : Payload) (c : Chat) :
    Survives (telegram w) (fun c' => Within (editSpots d payload) c c' ∧ SameMessages c c') c
      (resolveMaxEdit d connected payload) fun c' res =>
        res = .ok () → ShowsEdit d payload c' := by
  have hnothing : Within (editSpots d payload) c c ∧ SameMessages c c := ⟨.refl _ c, fun _ => rfl⟩
  unfold resolveMaxEdit
  cases hlink : payload.int? "link_id" with
  | none => exact ⟨hnothing, fun _ t ht => by simp [targetOf, hlink] at ht⟩
  | some link =>
    cases ht : resolveTarget d link.toNat with
    | none =>
      simp only [ht]
      exact ⟨hnothing, fun _ t ht' => by simp [targetOf, hlink, ht] at ht'⟩
    | some t =>
      have htarget : targetOf d payload = some t := by simp [targetOf, hlink, ht]
      have hspots : editSpots d payload = [t.spot t.holder] := by simp [editSpots, htarget]
      simp only [ht]
      split
      · next hempty =>
        refine ⟨hnothing, fun _ t' ht' hne => absurd hempty ?_⟩
        rw [htarget] at ht'
        exact Option.some.inj ht' ▸ hne
      · refine ((editTarget_survives connected t _ _ c).weaken fun c' h => ?_).mono ?_
        · rw [hspots]
          exact ⟨h.within, h.sameMessages⟩
        · intro c' res _ hres hok t' ht' _
          rw [htarget] at ht'
          exact Option.some.inj ht' ▸ hres.2 hok

end

/-! ## every history -/

/-- **An edit arrives as it was asked.**  In every history of the job only the messages that hold
the text are touched by it; a message that nobody else has removed stands after it exactly if it
stood before; and where the last attempt ended without an error, the message shows the new body in
the rendering for its author, or is gone. -/
theorem edited_as_asked {w : Wording} {payload : Payload} {c c' : Chat} {es : List Happening}
    (h : History w (fun d connected => resolveMaxEdit d connected payload) c es c') :
    (∀ s, c' s ≠ c s → ∃ e ∈ es, s ∈ e.touches (editSpots · payload)) ∧
      (∀ s, (∀ e ∈ es, s ∉ e.removes) → (c' s).isSome = (c s).isSome) ∧
      ∀ before d connected, es = before ++ [.tried d connected (.ok ())] →
        ShowsEdit d payload c' := by
  refine ⟨fun s hs => ?_, fun s hkept => ?_, fun before d connected hes => ?_⟩
  · have hjob : ∀ d connected c, Survives (telegram w) (Within (editSpots d payload) c) c
        (resolveMaxEdit d connected payload) fun _ _ => True := fun d connected c =>
      ((resolveMaxEdit_survives d connected payload c).weaken fun _ h => h.1).mono
        fun _ _ _ _ => trivial
    exact (h.within hjob).touched hs
  · induction h with
    | start => rfl
    | tried h hp ih =>
      have hlast := ((resolveMaxEdit_survives _ _ _ _).ends hp).1.2
      exact (hlast s).trans (ih fun e he => hkept e (List.mem_append_left _ he))
    | stopped h hp ih =>
      have hlast := ((resolveMaxEdit_survives _ _ _ _).halts hp).2
      exact (hlast s).trans (ih fun e he => hkept e (List.mem_append_left _ he))
    | elsewhere h hw hr ih =>
      have hlast := hkept _ (List.mem_append_right _ (List.mem_singleton.mpr rfl))
      exact (hr s hlast).trans (ih fun e he => hkept e (List.mem_append_left _ he))
  · cases h with
    | start => simp at hes
    | tried h hp =>
      obtain ⟨-, hlast⟩ := List.append_inj' hes rfl
      obtain ⟨rfl, rfl, rfl⟩ := by simpa using hlast
      exact ((resolveMaxEdit_survives _ _ _ _).ends hp).2 rfl
    | stopped h hp =>
      obtain ⟨-, hlast⟩ := List.append_inj' hes rfl
      simp at hlast
    | elsewhere h hw hr =>
      obtain ⟨-, hlast⟩ := List.append_inj' hes rfl
      simp at hlast

/-! ## an attempt that is served -/

section

variable {w : Wording}

theorem deleteEach_served (t : MaxTarget) (ms : List Int) (c : Chat) :
    ((telegram w).run .served c (deleteEach t ms [])).2.1 = .ok [] := by
  induction ms generalizing c with
  | nil => rfl
  | cons m ms ih =>
    change ((telegram w).run .served _ (afterDelete (deleteEach t ms) []
      (said w c (.delete t.botId t.chatId m)))).2.1 = _
    obtain hok | hgone := said_delete w c t.botId t.chatId m
    · rw [hok]
      exact ih _
    · rw [hgone, afterDelete_noOp w.nothingThere_noOp]
      exact ih _

/-- A served edit is done, finds nothing to do, or has taken the wrong half. -/
theorem editSaid_cases (w : Wording) (c : Chat) (s : Spot) (half : Body → Bool) (text : String)
    (entities : Value) :
    editSaid w c s half text entities = .ok () ∨
      editSaid w c s half text entities = .error w.nothingThere ∨
        (editSaid w c s half text entities = .error w.otherHalf ∧
          ∃ b, c s = some b ∧ half b = false) := by
  cases hc : c s with
  | none => simp [editSaid, hc]
  | some b =>
    cases hhalf : half b with
    | false => simp [editSaid, hc, hhalf]
    | true =>
      by_cases hsame : b.text = text ∧ b.entities = entities
      · simp [editSaid, hc, hhalf, hsame]
      · simp [editSaid, hc, hhalf, hsame]

theorem afterEdit_noOp {what : String} {other : Option (Job Unit)} :
    afterEdit what other (.error w.nothingThere) = pure () := by
  simp only [afterEdit, w.nothingThere_noOp]

/-- Served on one half or on the other, an edit ends well. -/
theorem mutate_served {what : String} {i o : Ask} {s : Spot} {half half' : Body → Bool}
    {text : String} {entities : Value} (hi : BotWrites i s half text entities)
    (ho : BotWrites o s half' text entities) (hhalves : ∀ b, half b = false → half' b = true)
    (c : Chat) :
    ((telegram w).run .served c (mutate what i (some o))).2.1 = .ok () := by
  change ((telegram w).run .served (effect c i) (afterEdit what _ (said w c i))).2.1 = _
  rw [hi.said]
  obtain hok | hnothing | ⟨hother, b, hb, hhalf⟩ := editSaid_cases w c s half text entities
  · rw [hok]
    rfl
  · rw [hnothing, afterEdit_noOp]
    rfl
  · rw [hother]
    have hgo : ∀ other : Job Unit, afterEdit what (some other) (.error w.otherHalf) = other := by
      intro other
      simp only [afterEdit, w.otherHalf_form]
    rw [Option.map_some, hgo]
    -- The wrong half was refused, so the message is as it was.
    have hsame : effect c i = c := by
      rw [hi.effect]
      simp [Chat.write, hb, hhalf]
    rw [hsame]
    change ((telegram w).run .served (effect c o) (afterEdit what none (said w c o))).2.1 = _
    rw [ho.said]
    obtain hok | hnothing | ⟨-, b', hb', hfalse⟩ := editSaid_cases w c s half' text entities
    · rw [hok]
      rfl
    · rw [hnothing, afterEdit_noOp]
      rfl
    · rw [hb] at hb'
      rw [← Option.some.inj hb', hhalves b hhalf] at hfalse
      cases hfalse

theorem deleteTarget_served (link : Int) (t : MaxTarget) (c : Chat) :
    ((telegram w).run .served c (deleteTarget true link t)).2.1 = .ok () := by
  unfold deleteTarget
  split
  · rfl
  · rw [World.run_bind _ _ _ _ _ (deleteEach_served t t.messageIds c)]
    rfl

/-- `resolve_max_delete`, where every call is served. -/
theorem resolveMaxDelete_served (w : Wording) (d : Durable) (payload : Payload) (c : Chat) :
    ((telegram w).run .served c (resolveMaxDelete d true payload)).2.1 = .ok () := by
  unfold resolveMaxDelete
  cases payload.int? "link_id" with
  | none => rfl
  | some link =>
    dsimp only
    cases resolveTarget d link.toNat with
    | none => rfl
    | some t => exact deleteTarget_served link t c

/-- The bot's edit takes one half, and then the other. -/
theorem editTarget_served_bot {t : MaxTarget} (hbot : t.authorship = .bot) (text : String)
    (entities : Value) (c : Chat) :
    ((telegram w).run .served c (editTarget true t text entities)).2.1 = .ok () := by
  have hasText := writes_editText t.botId t.chatId t.holder text entities
  have hasCaption := writes_editCaption t.botId t.chatId t.holder text entities
  simp only [editTarget, hbot]
  split
  · exact mutate_served hasCaption hasText (fun b h => by simp [h]) c
  · exact mutate_served hasText hasCaption (fun b h => by simpa using h) c

/-- What the session says of nothing to do is no answer that the job knows. -/
theorem afterEdit_noAnswer {what : String} {other : Option (Job Unit)} {e : TelegramError}
    (h : (classifyTelegram e).outcome = .noAnswer) :
    afterEdit what other (.error e) = throw (.telegram e) := by
  simp only [afterEdit, h]

/-- The session's edit ends well exactly where it has something to do. -/
theorem editTarget_served_owner {t : MaxTarget} (howner : t.authorship = .owner) (text : String)
    (entities : Value) (c : Chat) :
    (¬ Shows (t.spot t.holder) text entities c ∧
        ((telegram w).run .served c (editTarget true t text entities)).2.1 = .ok ()) ∨
      (Shows (t.spot t.holder) text entities c ∧
        ∃ e, (classifyTelegram e).outcome = .noAnswer ∧
          ((telegram w).run .served c (editTarget true t text entities)).2.1
            = .error (.telegram e)) := by
  have hspot : t.spot t.holder = .own t.botId t.holder := by simp only [MaxTarget.spot, howner]
  simp only [editTarget, howner, hspot]
  change (_ ∧ ((telegram w).run .served _ (afterEdit _ none
      (ownEditSaid w c (.own t.botId t.holder) text entities))).2.1 = _) ∨
    (_ ∧ ∃ e, _ ∧ ((telegram w).run .served _ (afterEdit _ none
      (ownEditSaid w c (.own t.botId t.holder) text entities))).2.1 = _)
  cases hc : c (.own t.botId t.holder) with
  | none =>
    simp only [ownEditSaid, hc, afterEdit_noAnswer w.ownGone_noAnswer]
    refine .inr ⟨fun b hb => ?_, _, w.ownGone_noAnswer, rfl⟩
    rw [hc] at hb
    cases hb
  | some b =>
    by_cases hsame : b.text = text ∧ b.entities = entities
    · simp only [ownEditSaid, hc, hsame, and_self, if_true,
        afterEdit_noAnswer w.ownUnchanged_noAnswer]
      refine .inr ⟨fun b' hb' => ?_, _, w.ownUnchanged_noAnswer, rfl⟩
      rw [hc] at hb'
      exact Option.some.inj hb' ▸ hsame
    · simp only [ownEditSaid, hc, hsame, if_false]
      exact .inl ⟨fun hshows => hsame (hshows b hc), rfl⟩

end

/-- The message is the owner's, and an edit of it finds it gone or already as asked. -/
def OwnUnmoved (d : Durable) (payload : Payload) (c : Chat) : Prop :=
  ∃ t, targetOf d payload = some t ∧ t.authorship = .owner ∧
    (bodyFor payload t.authorship).1 ≠ "" ∧
      Shows (t.spot t.holder) (bodyFor payload t.authorship).1 (bodyFor payload t.authorship).2 c

/-- `resolve_max_edit`, where every call is served. -/
theorem resolveMaxEdit_served (w : Wording) (d : Durable) (payload : Payload) (c : Chat) :
    (¬ OwnUnmoved d payload c ∧
        ((telegram w).run .served c (resolveMaxEdit d true payload)).2.1 = .ok ()) ∨
      (OwnUnmoved d payload c ∧
        ∃ e, (classifyTelegram e).outcome = .noAnswer ∧
          ((telegram w).run .served c (resolveMaxEdit d true payload)).2.1
            = .error (.telegram e)) := by
  unfold resolveMaxEdit
  cases hlink : payload.int? "link_id" with
  | none =>
    refine .inl ⟨?_, rfl⟩
    rintro ⟨t, ht, -⟩
    simp [targetOf, hlink] at ht
  | some link =>
    dsimp only
    cases ht : resolveTarget d link.toNat with
    | none =>
      refine .inl ⟨?_, rfl⟩
      rintro ⟨t, ht', -⟩
      simp [targetOf, hlink, ht] at ht'
    | some t =>
      have htarget : targetOf d payload = some t := by simp [targetOf, hlink, ht]
      dsimp only
      split
      · next hempty =>
        refine .inl ⟨?_, rfl⟩
        rintro ⟨t', ht', -, hbody, -⟩
        rw [htarget] at ht'
        exact hbody (Option.some.inj ht' ▸ hempty)
      · next hbody =>
        cases howner : t.authorship with
        | bot =>
          refine .inl ⟨?_, editTarget_served_bot howner _ _ c⟩
          rintro ⟨t', ht', hown, -⟩
          rw [htarget] at ht'
          rw [← Option.some.inj ht', howner] at hown
          cases hown
        | owner =>
          rw [← howner]
          obtain ⟨hmoves, hok⟩ | ⟨hshows, herr⟩ := editTarget_served_owner (w := w) howner
            (bodyFor payload t.authorship).1 (bodyFor payload t.authorship).2 c
          · refine .inl ⟨?_, hok⟩
            rintro ⟨t', ht', -, -, hshows⟩
            rw [htarget] at ht'
            exact hmoves (Option.some.inj ht' ▸ hshows)
          · exact .inr ⟨⟨t, htarget, howner, hbody, hshows⟩, herr⟩

/-- **A retry finishes what was left.**  Whatever the chat has come to, an attempt at a delete
whose calls are all served ends without an error, and so does one at an edit, unless the message
is the owner's and is gone or already as asked: then it ends as if nothing had been answered. -/
theorem served_finishes (w : Wording) (d : Durable) (payload : Payload) (c : Chat) :
    ((telegram w).run .served c (resolveMaxDelete d true payload)).2.1 = .ok () ∧
      (((telegram w).run .served c (resolveMaxEdit d true payload)).2.1 = .ok () ↔
        ¬ OwnUnmoved d payload c) ∧
      (OwnUnmoved d payload c → ∃ e, (classifyTelegram e).outcome = .noAnswer ∧
        ((telegram w).run .served c (resolveMaxEdit d true payload)).2.1
          = .error (.telegram e)) := by
  refine ⟨resolveMaxDelete_served w d payload c, ?_⟩
  obtain ⟨hmoves, hok⟩ | ⟨hunmoved, e, he, herr⟩ := resolveMaxEdit_served w d payload c
  · exact ⟨⟨fun _ => hmoves, fun _ => hok⟩, fun h => absurd h hmoves⟩
  · refine ⟨⟨fun hok => ?_, fun h => absurd hunmoved h⟩, fun _ => ⟨e, he, herr⟩⟩
    rw [herr] at hok
    cases hok

/-! ## a history -/

def editPayload : Payload := [("link_id", .int 1), ("text", .str "goodbye")]

/-- The message of `placed`, but with its words in a caption. -/
def captionedChat : Chat := fun s =>
  if s = .bot 7 5 30 then some { media := true, text := "hello" } else none

/-- Telegram asks to wait. -/
def limited : Turn := .refused (.retryAfter 3 "Flood control exceeded") (by decide)

/-- The first attempt is told to wait; the next takes the message for a text, is refused by name,
and writes the caption. -/
theorem edited_as_asked_caption :
    ∃ (c : Chat) (es : List Happening), es.length = 2 ∧
      History someWording (fun d connected => resolveMaxEdit d connected editPayload)
        captionedChat es c ∧ ShowsEdit placed editPayload c := by
  have hfits : ∀ s i, (telegram someWording).fits s i := fun _ _ => trivial
  let attempt := resolveMaxEdit placed true editPayload
  let after := ((telegram someWording).run limited captionedChat attempt).2.2
  have hfirst : History someWording (fun d connected => resolveMaxEdit d connected editPayload)
      captionedChat [.tried placed true _] after :=
    .tried (.start captionedChat) (World.plays_run hfits limited captionedChat attempt)
  have h : History someWording (fun d connected => resolveMaxEdit d connected editPayload)
      captionedChat [.tried placed true _, .tried placed true _] _ :=
    .tried hfirst (World.plays_run hfits .served after attempt)
  have hdone : ((telegram someWording).run .served after attempt).2.1 = .ok () := by
    decide +kernel
  rw [hdone] at h
  exact ⟨_, _, rfl, h, (edited_as_asked h).2.2 [.tried placed true _] placed true rfl⟩

/-- The message of `placed`, but placed by the owner. -/
def placedByOwner : Durable where
  messages := Table.empty.insert
    { MessageMap.newClaim "bridge" 1 2 7 5 none 0 with telegramOwnerMessageId := some 40 }

def ownerChat : Chat := fun s =>
  if s = .own 7 40 then some { media := false, text := "hello" } else none

/-- What an edit leaves whose answer is lost. -/
def afterLost (d : Durable) (c : Chat) : Chat :=
  ((telegram someWording).run lostAnswer c (resolveMaxEdit d true editPayload)).2.2

/-- Where the answer of the first edit was lost, the bot's message is taken for done at the next
attempt; the owner's edit is refused, as one that nobody has answered. -/
theorem served_finishes_again :
    ((telegram someWording).run .served (afterLost placed captionedChat)
        (resolveMaxEdit placed true editPayload)).2.1 = .ok () ∧
      ∃ e, (classifyTelegram e).outcome = .noAnswer ∧
        ((telegram someWording).run .served (afterLost placedByOwner ownerChat)
          (resolveMaxEdit placedByOwner true editPayload)).2.1 = .error (.telegram e) := by
  constructor
  · refine (served_finishes someWording placed editPayload _).2.1.mpr ?_
    rintro ⟨t, ht, howner, -⟩
    have hbot : (targetOf placed editPayload).map (·.authorship) = some .bot := by decide +kernel
    rw [ht, Option.map_some, howner] at hbot
    cases hbot
  · refine (served_finishes someWording placedByOwner editPayload _).2.2 ?_
    obtain ⟨t, ht⟩ := Option.isSome_iff_exists.mp
      (show (targetOf placedByOwner editPayload).isSome = true by decide +kernel)
    have hdata : (targetOf placedByOwner editPayload).map
        (fun t => (t.authorship, t.spot t.holder, bodyFor editPayload t.authorship))
          = some (.owner, .own 7 40, "goodbye", .null) := by decide +kernel
    rw [ht, Option.map_some, Option.some.injEq, Prod.mk.injEq, Prod.mk.injEq] at hdata
    obtain ⟨howner, hspot, hbody⟩ := hdata
    refine ⟨t, ht, howner, ?_, ?_⟩
    · rw [hbody]
      decide
    · rw [hbody, hspot]
      intro b hb
      have hchat : afterLost placedByOwner ownerChat (.own 7 40)
          = some { media := false, text := "goodbye" } := by decide +kernel
      rw [hchat] at hb
      exact Option.some.inj hb ▸ ⟨rfl, rfl⟩

end Telemax.MaxMutation
