import Telemax.MaxMutation.Chat

/-!
# Telemax.MaxMutation.Removed

What a delete from MAX does in Telegram over all its attempts.  An attempt may be cut short at
any call, may be refused or lose an answer, and the target may resolve differently each time;
still nothing but the target is touched, what is gone stays gone, and when an attempt ends
without an error nothing of its target is left.
-/

namespace Telemax.MaxMutation

open Script

/-! ## the messages of a target -/

def MaxTarget.spot (t : MaxTarget) (message : Int) : Spot :=
  match t.authorship with
  | .bot => .bot t.botId t.chatId message
  | .owner => .own t.botId message

def MaxTarget.spots (t : MaxTarget) : List Spot := t.messageIds.map t.spot

theorem MaxTarget.mem_spots {t : MaxTarget} {message : Int} (h : message ∈ t.messageIds) :
    t.spot message ∈ t.spots :=
  List.mem_map_of_mem h

theorem MaxTarget.head_mem (t : MaxTarget) : t.head ∈ t.messageIds := List.head_mem t.placed

/-- What the job resolves to, under this state of the tables. -/
def targetOf (d : Durable) (payload : Payload) : Option MaxTarget :=
  (payload.int? "link_id").bind fun link => resolveTarget d link.toNat

/-- The messages of the target; without one there are none. -/
def targetSpots (d : Durable) (payload : Payload) : List Spot :=
  ((targetOf d payload).map (·.spots)).getD []

/-! ## what a delete may do -/

/-- Some of the target is gone, the rest is as it was. -/
def Thinned (t : MaxTarget) (c c' : Chat) : Prop :=
  ∀ s, c' s = c s ∨ s ∈ t.spots ∧ c' s = none

/-- Some of the target is gone, and the notice may stand where its head stood. -/
def Marked (t : MaxTarget) (c c' : Chat) : Prop :=
  ∀ s, c' s = c s ∨ s ∈ t.spots ∧
    (c' s = none ∨ t.authorship = .bot ∧ s = t.spot t.head ∧
      ∃ b, c s = some b ∧ c' s = some { b with text := deletedNotice, entities := .null })

theorem Thinned.refl (t : MaxTarget) (c : Chat) : Thinned t c c := fun _ => .inl rfl

theorem Thinned.marked {t : MaxTarget} {c c' : Chat} (h : Thinned t c c') : Marked t c c' :=
  fun s => (h s).imp_right fun hs => ⟨hs.1, .inl hs.2⟩

/-- One more message of the target is gone. -/
theorem Thinned.remove {t : MaxTarget} {c c' : Chat} (h : Thinned t c c') {s : Spot}
    (hs : s ∈ t.spots) : Thinned t c (Function.update c' s none) := by
  intro s'
  by_cases hne : s' = s
  · subst hne
    exact .inr ⟨hs, Function.update_self _ _ _⟩
  · rw [Function.update_of_ne hne]
    exact h s'

/-- The notice is written over the head. -/
theorem Thinned.notice {t : MaxTarget} {c c' : Chat} (h : Thinned t c c')
    (hbot : t.authorship = .bot) (half : Body → Bool) :
    Marked t c (c'.write (t.spot t.head) half deletedNotice .null) := by
  intro s
  by_cases hs : s = t.spot t.head
  · subst hs
    obtain hsame | ⟨b, hb, -, hnew⟩ := c'.write_self (t.spot t.head) half deletedNotice .null
    · rw [hsame]
      exact h.marked _
    · obtain hkept | ⟨-, hgone⟩ := h (t.spot t.head)
      · rw [hkept] at hb
        exact .inr ⟨MaxTarget.mem_spots t.head_mem, .inr ⟨hbot, rfl, b, hb, hnew⟩⟩
      · rw [hgone] at hb
        cases hb
  · rw [Chat.write_ne hs]
    exact h.marked s

/-- Nothing that is gone comes back. -/
def StaysGone (c c' : Chat) : Prop := ∀ s, c s = none → c' s = none

theorem StaysGone.refl (c : Chat) : StaysGone c c := fun _ h => h

theorem StaysGone.trans {c c' c'' : Chat} (h : StaysGone c c') (h' : StaysGone c' c'') :
    StaysGone c c'' := fun s hs => h' s (h s hs)

theorem StaysGone.remove (c : Chat) (s : Spot) : StaysGone c (Function.update c s none) := by
  intro s' hs'
  by_cases hne : s' = s
  · rw [hne, Function.update_self]
  · rw [Function.update_of_ne hne, hs']

theorem Marked.staysGone {t : MaxTarget} {c c' : Chat} (h : Marked t c c') : StaysGone c c' := by
  intro s hs
  obtain hsame | ⟨-, hgone | ⟨-, -, b, hb, -⟩⟩ := h s
  · rw [hsame, hs]
  · exact hgone
  · rw [hs] at hb
    cases hb

section

variable {w : Wording} {t : MaxTarget} {c₀ c : Chat}

theorem afterDelete_noOp {go : List String → Job (List String)} {refused : List String}
    {e : TelegramError} (h : (classifyTelegram e).outcome = .noOp) :
    afterDelete go refused (.error e) = go refused := by
  simp only [afterDelete, h]

theorem afterDelete_noAnswer {go : List String → Job (List String)} {refused : List String}
    {e : TelegramError} (h : (classifyTelegram e).outcome = .noAnswer) :
    afterDelete go refused (.error e) = throw (.telegram e) := by
  simp only [afterDelete, h]

/-- A refusal is noted, or ends the loop. -/
theorem afterDelete_refused (go : List String → Job (List String)) (refused : List String)
    {e : TelegramError} (h : (classifyTelegram e).outcome ∉ [.noOp, .noAnswer]) :
    afterDelete go refused (.error e) = go (refused ++ [(classifyTelegram e).detail]) ∨
      afterDelete go refused (.error e) = throw (.telegram e) := by
  simp only [afterDelete]
  split
  · next hout => simp [hout] at h
  · exact .inr rfl
  · exact .inr rfl
  · exact .inl rfl

/-- How the loop over the bot's messages may end. -/
def LoopEnd (t : MaxTarget) (ms : List Int) (refused : List String) (c' : Chat) :
    Except SendError (List String) → Prop
  | .ok all => all = [] → refused = [] ∧ ∀ m ∈ ms, c' (t.spot m) = none
  | .error e => ∃ te, e = .telegram te

theorem LoopEnd.cons {m : Int} {ms : List Int} {refused refused' : List String} {c' c'' : Chat}
    {res : Except SendError (List String)} (h : LoopEnd t ms refused' c'' res)
    (hgone : StaysGone c' c'')
    (hm : refused' = [] → refused = [] ∧ c' (t.spot m) = none) :
    LoopEnd t (m :: ms) refused c'' res := by
  cases res with
  | error e => exact h
  | ok all =>
    intro hall
    obtain ⟨hrefused', hms⟩ := h hall
    obtain ⟨hrefused, hgone'⟩ := hm hrefused'
    refine ⟨hrefused, fun m' hm' => ?_⟩
    obtain rfl | hm' := List.mem_cons.mp hm'
    · exact hgone _ hgone'
    · exact hms m' hm'

/-- **The loop over the bot's messages**: wherever it is stopped, some of them are gone and the
rest is as it was. -/
theorem deleteEach_survives (hbot : t.authorship = .bot) (ms : List Int) (refused : List String)
    (hms : ∀ m ∈ ms, m ∈ t.messageIds) (hc : Thinned t c₀ c) :
    Survives (telegram w) (Thinned t c₀) c (deleteEach t ms refused) fun c' res =>
      StaysGone c c' ∧ LoopEnd t ms refused c' res := by
  induction ms generalizing c refused with
  | nil => exact ⟨hc, .refl c, fun hall => ⟨hall, by simp⟩⟩
  | cons m ms ih =>
    have hspot : t.spot m = .bot t.botId t.chatId m := by simp [MaxTarget.spot, hbot]
    have hmem : t.spot m ∈ t.spots := MaxTarget.mem_spots (hms m List.mem_cons_self)
    have hrest : ∀ m' ∈ ms, m' ∈ t.messageIds := fun m' h => hms m' (List.mem_cons_of_mem _ h)
    have hremoved := hc.remove hmem
    rw [hspot] at hremoved hmem
    refine ⟨hc, fun _ turn => ?_⟩
    -- The message is gone, and the loop goes on.
    have hgo : Survives (telegram w) (Thinned t c₀)
        (Function.update c (.bot t.botId t.chatId m) none) (deleteEach t ms refused) fun c' res =>
        StaysGone c c' ∧ LoopEnd t (m :: ms) refused c' res := by
      refine (ih refused hrest hremoved).mono fun c' res _ hres => ⟨?_, ?_⟩
      · exact (StaysGone.remove c _).trans hres.1
      · refine hres.2.cons hres.1 fun h => ⟨h, ?_⟩
        rw [hspot, Function.update_self]
    cases turn with
    | served =>
      change Survives _ _ _ (afterDelete _ _ (said w c (.delete t.botId t.chatId m))) _
      obtain hok | hgone := said_delete w c t.botId t.chatId m
      · rw [hok]
        exact hgo
      · rw [hgone, afterDelete_noOp w.nothingThere_noOp]
        exact hgo
    | refused e h =>
      change Survives _ _ c (afterDelete _ _ (.error e)) _
      obtain hnoted | hends := afterDelete_refused (deleteEach t ms) refused h
      · rw [hnoted]
        refine (ih _ hrest hc).mono fun c' res _ hres => ⟨hres.1, ?_⟩
        exact hres.2.cons hres.1 fun hnil => absurd hnil (by simp)
      · rw [hends]
        exact ⟨hc, .refl c, e, rfl⟩
    | lost e h applied =>
      change Survives _ _ (if applied then effect c _ else c) (afterDelete _ _ (.error e)) _
      rw [afterDelete_noAnswer h]
      cases applied with
      | true => exact ⟨hremoved, .remove c _, e, rfl⟩
      | false => exact ⟨hc, .refl c, e, rfl⟩

/-- How a delete may end. -/
def DeleteEnd (t : MaxTarget) (c c' : Chat) (res : Except SendError Unit) : Prop :=
  (res = .ok () → ∀ s ∈ t.spots, c' s = none) ∧
    ((∀ why, res ≠ .error (.permanentDelivery why)) → Thinned t c c')

theorem DeleteEnd.of_error {c c' : Chat} {e : SendError} (h : Thinned t c c') :
    DeleteEnd t c c' (.error e) := by
  refine ⟨fun hok => ?_, fun _ => h⟩
  cases hok

/-- The notice, and then the refusal. -/
theorem sayItIsGone_survives (hbot : t.authorship = .bot) (why : String)
    (hc : Thinned t c₀ c) :
    Survives (telegram w) (Marked t c₀) c
      (sayItIsGone t >>= fun _ => throw (.permanentDelivery why)) (DeleteEnd t c₀) := by
  have hend : ∀ c', DeleteEnd t c₀ c' (.error (.permanentDelivery why)) := fun c' =>
    ⟨fun h => (by cases h), fun h => absurd rfl (h why)⟩
  refine ⟨hc.marked, fun _ turn => ?_⟩
  have hwritten : Marked t c₀ (effect c (.editText t.botId t.chatId t.head deletedNotice .null)) := by
    have hspot : Spot.bot t.botId t.chatId t.head = t.spot t.head := by
      simp only [MaxTarget.spot, hbot]
    rw [effect, hspot]
    exact hc.notice hbot _
  cases turn with
  | served => exact ⟨hwritten, hend _⟩
  | refused e h => exact ⟨hc.marked, hend _⟩
  | lost e h applied =>
    cases applied with
    | true => exact ⟨hwritten, hend _⟩
    | false => exact ⟨hc.marked, hend _⟩

/-- **One attempt at a delete.** -/
theorem deleteTarget_survives (connected : Bool) (link : Int) (t : MaxTarget) (c : Chat) :
    Survives (telegram w) (Marked t c) c (deleteTarget connected link t) (DeleteEnd t c) := by
  unfold deleteTarget
  split
  · next howner =>
    have hnothing : Thinned t c c := .refl t c
    split
    · refine ⟨hnothing.marked, fun _ turn => ?_⟩
      have hspots : t.spots = t.messageIds.map (.own t.botId) := by
        unfold MaxTarget.spots
        refine List.map_congr_left fun m _ => ?_
        simp only [MaxTarget.spot, howner]
      have hgone : ∀ s ∈ t.spots, effect c (.deleteOwnMessages t.botId t.messageIds) s = none := by
        intro s hs
        rw [hspots] at hs
        exact if_pos hs
      have hthin : Thinned t c (effect c (.deleteOwnMessages t.botId t.messageIds)) := by
        intro s
        by_cases hs : s ∈ t.spots
        · exact .inr ⟨hs, hgone s hs⟩
        · exact .inl (if_neg (hspots ▸ hs))
      cases turn with
      | served => exact ⟨hthin.marked, fun _ => hgone, fun _ => hthin⟩
      | refused e h => exact ⟨hnothing.marked, .of_error hnothing⟩
      | lost e h applied =>
        cases applied with
        | true => exact ⟨hthin.marked, .of_error hthin⟩
        | false => exact ⟨hnothing.marked, .of_error hnothing⟩
    · exact ⟨hnothing.marked, .of_error hnothing⟩
  · next hbot =>
    have hloop := deleteEach_survives (w := w) hbot t.messageIds [] (fun _ h => h) (.refl t c)
    refine (hloop.weaken fun _ h => h.marked).bind (fun c' e _ h => .of_error h.1)
      fun c' refused _ h => ?_
    · cases refused with
      | nil =>
        refine ⟨h.1.marked, fun _ s hs => ?_, fun _ => h.1⟩
        obtain ⟨m, hm, rfl⟩ := List.mem_map.mp hs
        exact (h.2.2 rfl).2 m hm
      | cons first more => exact sayItIsGone_survives hbot _ h.1

/-- Only these messages were touched, and none came back. -/
structure Within (ss : List Spot) (c c' : Chat) : Prop where
  frame : ∀ s, s ∉ ss → c' s = c s
  gone : StaysGone c c'

theorem Within.refl (ss : List Spot) (c : Chat) : Within ss c c := ⟨fun _ _ => rfl, .refl c⟩

theorem Marked.within {c c' : Chat} (h : Marked t c c') : Within t.spots c c' := by
  refine ⟨fun s hs => ?_, h.staysGone⟩
  obtain hsame | ⟨hmem, -⟩ := h s
  · exact hsame
  · exact absurd hmem hs

/-- `resolve_max_delete` as a whole. -/
theorem resolveMaxDelete_survives (d : Durable) (connected : Bool) (payload : Payload) (c : Chat) :
    Survives (telegram w) (Within (targetSpots d payload) c) c
      (resolveMaxDelete d connected payload) fun c' res =>
        res = .ok () → ∀ s ∈ targetSpots d payload, c' s = none := by
  unfold resolveMaxDelete
  cases hlink : payload.int? "link_id" with
  | none =>
    have hnone : targetSpots d payload = [] := by simp [targetSpots, targetOf, hlink]
    rw [hnone]
    exact ⟨.refl _ c, fun _ => by simp⟩
  | some link =>
    cases ht : resolveTarget d link.toNat with
    | none =>
      have hnone : targetSpots d payload = [] := by simp [targetSpots, targetOf, hlink, ht]
      rw [hnone]
      simp only [ht]
      exact ⟨.refl _ c, fun _ => by simp⟩
    | some t =>
      have hspots : targetSpots d payload = t.spots := by simp [targetSpots, targetOf, hlink, ht]
      rw [hspots]
      simp only [ht]
      refine ((deleteTarget_survives connected link t c).weaken fun _ h => h.within).mono ?_
      exact fun c' res _ h => h.2.1

end

/-! ## every history -/

/-- What may happen between the first attempt and the last. -/
inductive Happening
  /-- An attempt ran to its end. -/
  | tried (d : Durable) (connected : Bool) (res : Except SendError Unit)
  /-- An attempt was cut short. -/
  | stopped (d : Durable) (connected : Bool)
  /-- Somebody else changed some messages, and removed some of them.  A spot is one message's for
  good, and a message that comes later can be taken as there from the start. -/
  | elsewhere (touched removed : List Spot)

/-- The messages a happening may touch, where `touch` says which an attempt may. -/
def Happening.touches (touch : Durable → List Spot) : Happening → List Spot
  | tried d _ _ | stopped d _ => touch d
  | elsewhere touched _ => touched

/-- The messages somebody else has removed. -/
def Happening.removes : Happening → List Spot
  | tried .. | stopped .. => []
  | elsewhere _ removed => removed

/-- A job's history: the chat before it, what happened, and the chat after it. -/
inductive History (w : Wording) (job : Durable → Bool → Job Unit) :
    Chat → List Happening → Chat → Prop
  | start (c : Chat) : History w job c [] c
  | tried {c c' c'' : Chat} {es : List Happening} {d : Durable} {connected : Bool}
      {tr : List (Asked Reply)} {res : Except SendError Unit} (h : History w job c es c')
      (hp : Plays (telegram w) c' (job d connected) tr res c'') :
      History w job c (es ++ [.tried d connected res]) c''
  | stopped {c c' c'' : Chat} {es : List Happening} {d : Durable} {connected : Bool}
      (h : History w job c es c') (hp : Halts (telegram w) c' (job d connected) c'') :
      History w job c (es ++ [.stopped d connected]) c''
  | elsewhere {c c' c'' : Chat} {es : List Happening} {touched removed : List Spot}
      (h : History w job c es c') (hw : Within touched c' c'')
      (hr : ∀ s, s ∉ removed → (c'' s).isSome = (c' s).isSome) :
      History w job c (es ++ [.elsewhere touched removed]) c''

/-- Nothing but what a happening may touch is changed, and nothing comes back. -/
theorem History.within {w : Wording} {job : Durable → Bool → Job Unit} {touch : Durable → List Spot}
    {c c' : Chat} {es : List Happening}
    (hjob : ∀ d connected c,
      Survives (telegram w) (Within (touch d) c) c (job d connected) fun _ _ => True)
    (h : History w job c es c') : Within (es.flatMap (Happening.touches touch)) c c' := by
  have hgo : ∀ {es : List Happening} {e : Happening} {c c' c'' : Chat},
      Within (es.flatMap (Happening.touches touch)) c c' → Within (e.touches touch) c' c'' →
        Within ((es ++ [e]).flatMap (Happening.touches touch)) c c'' := by
    intro es e c c' c'' h h'
    refine ⟨fun s hs => ?_, h.gone.trans h'.gone⟩
    rw [List.flatMap_append, List.mem_append, not_or] at hs
    rw [h'.frame s (by simpa using hs.2), h.frame s hs.1]
  induction h with
  | start => exact .refl _ _
  | tried _ hp ih => exact hgo ih ((hjob _ _ _).ends hp).1
  | stopped _ hp ih => exact hgo ih ((hjob _ _ _).halts hp)
  | elsewhere _ hw _ ih => exact hgo ih hw

/-- What has changed was touched by something that happened. -/
theorem Within.touched {touch : Durable → List Spot} {c c' : Chat} {es : List Happening}
    (h : Within (es.flatMap (Happening.touches touch)) c c') {s : Spot} (hs : c' s ≠ c s) :
    ∃ e ∈ es, s ∈ e.touches touch := by
  by_contra hnone
  refine hs (h.frame s fun hmem => hnone ?_)
  simpa using hmem

/-- **A delete is done for good.**  In every history of the job — attempts that fail, lose an
answer or are cut short, and whatever else happens to the chat in between — only messages of its
targets are touched by it, and once an attempt has ended without an error, every message of its
target is gone and stays gone. -/
theorem deleted_for_good {w : Wording} {payload : Payload} {c c' : Chat} {es : List Happening}
    (h : History w (fun d connected => resolveMaxDelete d connected payload) c es c') :
    (∀ s, c' s ≠ c s → ∃ e ∈ es, s ∈ e.touches (targetSpots · payload)) ∧
      ∀ d connected, .tried d connected (.ok ()) ∈ es → ∀ s ∈ targetSpots d payload, c' s = none := by
  constructor
  · have hjob : ∀ d connected c, Survives (telegram w) (Within (targetSpots d payload) c) c
        (resolveMaxDelete d connected payload) fun _ _ => True := fun d connected c =>
      (resolveMaxDelete_survives d connected payload c).mono fun _ _ _ _ => trivial
    exact fun s hs => (h.within hjob).touched hs
  · induction h with
    | start => simp
    | tried h hp ih =>
      obtain ⟨hwithin, hdone⟩ := (resolveMaxDelete_survives _ _ _ _).ends hp
      intro d connected hmem s hs
      obtain hmem | hlast := List.mem_append.mp hmem
      · exact hwithin.gone s (ih d connected hmem s hs)
      · obtain ⟨rfl, rfl, rfl⟩ := by simpa using hlast
        exact hdone rfl s hs
    | stopped h hp ih =>
      have hwithin := (resolveMaxDelete_survives _ _ _ _).halts hp
      intro d connected hmem s hs
      have hmem := (List.mem_append.mp hmem).resolve_right (by simp)
      exact hwithin.gone s (ih d connected hmem s hs)
    | elsewhere h hw _ ih =>
      intro d connected hmem s hs
      have hmem := (List.mem_append.mp hmem).resolve_right (by simp)
      exact hw.gone s (ih d connected hmem s hs)

/-! ## a history -/

/-- The words of Telegram for the two refusals. -/
def someWording : Wording where
  nothingThere := .badRequest "Bad Request: message to delete not found"
  ownUnchanged := .other "MessageNotModifiedError" "Content of the message was not modified"
  ownGone := .other "MessageIdInvalidError" "The specified message ID is invalid"
  otherHalf := .badRequest "Bad Request: there is no text in the message to edit"
  nothingThere_noOp := by decide +kernel
  ownUnchanged_noAnswer := rfl
  ownGone_noAnswer := rfl
  otherHalf_form := by decide +kernel

/-- A text from MAX that the bot has placed. -/
def placed : Durable where
  messages := Table.empty.insert
    { MessageMap.newClaim "bridge" 1 2 7 5 none 0 with telegramMessageId := some 30 }

def placedChat : Chat := fun s =>
  if s = .bot 7 5 30 then some { media := false, text := "hello" } else none

def deletePayload : Payload := [("link_id", .int 1)]

/-- The call is carried out, and its answer is lost. -/
def lostAnswer : Turn := .lost (.network "timed out") (by decide +kernel) true

/-- The first answer is lost after the message was removed; the next attempt finds it gone. -/
theorem deleted_for_good_retried :
    ∃ (c : Chat) (es : List Happening), es.length = 2 ∧
      History someWording (fun d connected => resolveMaxDelete d connected deletePayload)
        placedChat es c ∧ c (.bot 7 5 30) = none := by
  have hfits : ∀ s i, (telegram someWording).fits s i := fun _ _ => trivial
  let attempt := resolveMaxDelete placed true deletePayload
  let after := ((telegram someWording).run lostAnswer placedChat attempt).2.2
  have hfirst : History someWording (fun d connected => resolveMaxDelete d connected deletePayload)
      placedChat [.tried placed true _] after :=
    .tried (.start placedChat) (World.plays_run hfits lostAnswer placedChat attempt)
  have h : History someWording (fun d connected => resolveMaxDelete d connected deletePayload)
      placedChat [.tried placed true _, .tried placed true _] _ :=
    .tried hfirst (World.plays_run hfits .served after attempt)
  have hdone : ((telegram someWording).run .served after attempt).2.1 = .ok () := by
    decide +kernel
  have hspots : Spot.bot 7 5 30 ∈ targetSpots placed deletePayload := by decide +kernel
  rw [hdone] at h
  refine ⟨_, _, rfl, h, (deleted_for_good h).2 placed true ?_ _ hspots⟩
  exact List.mem_cons_of_mem _ (List.mem_singleton.mpr rfl)

end Telemax.MaxMutation
