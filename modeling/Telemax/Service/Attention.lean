import Telemax.Service.Steps

/-!
# Telemax.Service.Attention

What the guardian says on its own initiative.  It posts one text only, and only on facts that are
critical; it edits only messages it has written down; what it remembers is what the last call found;
and as long as Telegram answers, at most one message asks for attention.
-/

namespace Telemax.Service

/-! ## one await -/

/-- What a call of `publish` relies on at an await, by what it has read. -/
def Stage.Sound (g : Guardian) (read : Option Facts) : Stage → Prop
  | .retiring left remembered =>
      (∀ x ∈ left, g.notifications.get? x.1 = some x.2 ∧ x.1 ≠ pushKey) ∧
        remembered.get? pushKey = g.push? ∧ read = none
  | .asking => read = none
  | .editing message facts => g.push? = some message ∧ critical facts = true ∧ read = some facts
  | .sending facts => critical facts = true ∧ read = some facts
  | .resolving message => g.push? = some message ∧ read.map critical = some false

namespace Guardian

/-- A push is remembered exactly when the last call that ended well found critical facts. -/
def Honest (g : Guardian) (found : Option Bool) : Prop := ∀ b, found = some b → g.push?.isSome = b

/-- So it is with what a call that ends well has found. -/
theorem Honest.returns {g : Guardian} {found : Option Bool} {read : Option Facts} {b : Bool}
    (hread : read.map critical = some b) (hpush : g.push?.isSome = b) :
    g.Honest ((read.map critical).or found) := by
  rw [hread]
  rintro _ ⟨rfl⟩
  exact hpush

namespace Outcome

def guardian : Outcome → Guardian
  | .goesOn g _ | .returns g | .raises g => g

def Sound (found : Option Bool) (read : Option Facts) : Outcome → Prop
  | .goesOn g stage => g.Honest found ∧ stage.Sound g read
  | .returns g => g.Honest ((read.map critical).or found)
  | .raises g => g.Honest found

end Outcome

/-- An edit changes nothing, or the text of a message that is there. -/
theorem edit_cases (g : Guardian) (message : Nat) (text : String) (answer : Answer) :
    g.edit message text answer = (g, false) ∧ ((g.chat.get? message) = none ∨ answer = .refused) ∨
      g.edit message text answer =
        ({ g with chat := g.chat.modify message fun _ => text }, decide (answer = .served)) := by
  unfold edit
  split
  · exact .inr rfl
  · next h =>
    refine .inl ⟨rfl, ?_⟩
    by_cases hanswer : answer = .refused
    · exact .inr hanswer
    · left
      simpa [hanswer] using h

section

variable (g : Guardian) (message : Nat) (text : String) (answer : Answer)

@[simp] theorem notifications_edit :
    (g.edit message text answer).1.notifications = g.notifications := by
  obtain ⟨h, -⟩ | h := g.edit_cases message text answer <;> rw [h]

@[simp] theorem push?_edit : (g.edit message text answer).1.push? = g.push? := by
  simp [push?]

end

theorem Honest.edit {g : Guardian} {found : Option Bool} (h : g.Honest found) (message : Nat)
    (text : String) (answer : Answer) : (g.edit message text answer).1.Honest found := by
  intro b hb
  rw [push?_edit]
  exact h b hb

section

variable {g : Guardian} {answer : Answer} {found : Option Bool} {read : Option Facts}

/-- The messages of the previous design are among those remembered. -/
theorem mem_legacy {x : String × Nat} (h : x ∈ g.legacy) :
    g.notifications.get? x.1 = some x.2 ∧ x.1 ≠ pushKey := by
  obtain ⟨hmem, hne⟩ := List.mem_filter.mp h
  exact ⟨Dict.get?_eq_some_iff.mpr hmem, by simpa using hne⟩

theorem begin_sound (h : g.Honest found) : g.begin.Sound found none := by
  have hkept : ({ g with retired := true } : Guardian).Honest found := h
  unfold begin
  simp only
  split
  · exact ⟨hkept, rfl⟩
  · exact ⟨hkept, fun _ hx => mem_legacy hx, rfl, rfl⟩

/-- The facts are read. -/
theorem asked_sound {facts : Facts} {stage : Stage} {outcome : Outcome} (hg : g.Honest found)
    (h : g.asked (some facts) stage = some outcome) : outcome.Sound found (some facts) := by
  cases stage with
  | asking =>
    simp only [asked] at h
    split at h
    · next message hpush =>
      obtain rfl := Option.some.inj h
      refine ⟨hg, ?_⟩
      split
      · next hcritical => exact ⟨hpush, hcritical, rfl⟩
      · next hcalm => exact ⟨hpush, congrArg some (Bool.not_eq_true _ ▸ hcalm)⟩
    · next hnone =>
      obtain rfl := Option.some.inj h
      split
      · next hcritical => exact ⟨hg, hcritical, rfl⟩
      · next hcalm =>
        refine .returns (b := false) (congrArg some (Bool.not_eq_true _ ▸ hcalm)) ?_
        rw [hnone]
        rfl
  | _ => cases h

/-- They could not be read. -/
theorem unread_sound {stage : Stage} {outcome : Outcome} (hg : g.Honest found)
    (hstage : stage.Sound g read) (h : g.asked none stage = some outcome) :
    outcome.Sound found read := by
  cases stage with
  | asking =>
    obtain rfl : read = none := hstage
    exact Option.some.inj h ▸ hg
  | _ => cases h

theorem edited_sound {written : Bool} {stage : Stage} {outcome : Outcome} (hg : g.Honest found)
    (hstage : stage.Sound g read) (h : g.edited answer written stage = some outcome) :
    outcome.Sound found read := by
  cases stage with
  | retiring left remembered =>
    obtain ⟨hleft, hremembered, hread⟩ := hstage
    cases left with
    | nil => cases h
    | cons first left =>
      obtain ⟨key, message⟩ := first
      have hkey : pushKey ≠ key := Ne.symm (hleft _ List.mem_cons_self).2
      have hpush : (remembered.erase key).get? pushKey = g.push? := by
        rw [Dict.get?_erase, if_neg hkey]
        exact hremembered
      simp only [edited] at h
      split at h
      · obtain rfl := Option.some.inj h
        split
        · refine ⟨fun b hb => ?_, hread⟩
          show ((remembered.erase key).get? pushKey).isSome = b
          rw [hpush]
          exact hg b hb
        · exact hg.edit _ _ _
      · obtain rfl := Option.some.inj h
        refine ⟨hg.edit _ _ _, fun x hx => ?_, ?_, hread⟩
        · rw [notifications_edit]
          exact hleft x (List.mem_cons_of_mem _ hx)
        · rw [push?_edit]
          exact hpush
  | editing message facts =>
    obtain ⟨hpush, hcritical, rfl⟩ := hstage
    simp only [edited] at h
    split at h
    · next g' hedit =>
      obtain rfl := Option.some.inj h
      have hkept : g'.push? = g.push? := by
        rw [← g.push?_edit message attentionText answer, hedit]
      refine .returns (b := true) (congrArg some hcritical) ?_
      rw [hkept, hpush]
      rfl
    · next g' hedit =>
      obtain rfl := Option.some.inj h
      have hkept := hg.edit message attentionText answer
      rw [hedit] at hkept
      exact ⟨hkept, hcritical, rfl⟩
  | resolving message =>
    simp only [edited] at h
    obtain rfl := Option.some.inj h
    split
    · refine .returns hstage.2 ?_
      show (((g.edit message resolvedText answer).1.notifications.erase pushKey).get?
        pushKey).isSome = false
      rw [Dict.get?_erase, if_pos rfl]
      rfl
    · exact hg.edit _ _ _
  | _ => cases h

theorem sent_sound {written : Bool} {stage : Stage} {outcome : Outcome} (hg : g.Honest found)
    (hstage : stage.Sound g read) (h : g.sent answer written stage = some outcome) :
    outcome.Sound found read := by
  have hposted : ({ g with chat := g.chat.insert attentionText } : Guardian).Honest found := hg
  cases stage with
  | sending facts =>
    obtain ⟨hcritical, rfl⟩ := hstage
    simp only [sent] at h
    split at h
    · exact Option.some.inj h ▸ hg
    · exact Option.some.inj h ▸ hposted
    · obtain rfl := Option.some.inj h
      split
      · refine .returns (b := true) (congrArg some hcritical) ?_
        show ((g.notifications.insert pushKey g.chat.next).get? pushKey).isSome = true
        rw [Dict.get?_insert, if_pos rfl]
        rfl
      · exact hposted
  | _ => cases h

end

end Guardian

theorem Went.sound {g : Guardian} {stage : Stage} {read read' : Option Facts} {e : Event}
    {outcome : Guardian.Outcome} {found : Option Bool} (h : Went g stage read e read' outcome)
    (hg : g.Honest found) (hstage : stage.Sound g read) : outcome.Sound found read' := by
  cases h with
  | asked h => exact Guardian.asked_sound hg h
  | unread h => exact Guardian.unread_sound hg hstage h
  | edited h => exact Guardian.edited_sound hg hstage h
  | sent h => exact Guardian.sent_sound hg hstage h

/-! ## whole runs -/

structure State.Sound (s : State) : Prop where
  honest : s.guardian.Honest s.found
  stage : ∀ (alert : Nat × Alert) (left : List (Nat × Alert)) (stage : Stage),
    s.loop = .publishing alert left stage → stage.Sound s.guardian s.read

namespace State.Sound

variable {s t : State} {e : Event}

theorem after {alert : Nat × Alert} {left : List (Nat × Alert)} {outcome : Guardian.Outcome}
    (h : outcome.Sound s.found s.read) : (s.after alert left outcome).Sound := by
  cases outcome with
  | goesOn g stage =>
    refine ⟨h.1, fun alert' left' stage' hloop => ?_⟩
    cases hloop
    exact h.2
  | returns g | raises g => exact ⟨h, fun _ _ _ hloop => nomatch hloop⟩

/-- What is read and found stays with the guardian it was read for. -/
theorem honest_of_like (hs : s.Sound) (h : s.Like t) : t.guardian.Honest t.found := by
  rw [h.guardian, h.found]
  exact hs.honest

theorem step (hs : s.Sound) (h : Service.step s e = some t) : t.Sound := by
  cases moved_step h with
  | same hlike hl =>
    refine ⟨hs.honest_of_like hlike, fun alert left stage hloop => ?_⟩
    rw [hlike.guardian, hlike.read]
    exact hs.stage alert left stage (hl ▸ hloop)
  | wakes hlike hl =>
    refine ⟨hs.honest_of_like hlike, fun alert left stage hloop => ?_⟩
    rw [hl] at hloop
    cases hloop
  | decides | skips | sleeps | claims | absent | marks =>
    exact ⟨hs.honest, fun _ _ _ hloop => nomatch hloop⟩
  | begins => exact .after (Guardian.begin_sound hs.honest)
  | goes hloop ha hf hm hwent =>
    exact .after (hf ▸ hwent.sound hs.honest (hs.stage _ _ _ hloop))
  | reports => exact ⟨hs.honest, hs.stage⟩
  | deletes =>
    refine ⟨hs.honest, fun alert left stage hloop => ?_⟩
    have hold := hs.stage alert left stage hloop
    cases stage <;> exact hold
  | restarts => exact ⟨hs.honest, fun _ _ _ hloop => nomatch hloop⟩

end State.Sound

theorem State.sound {old : Old} {s : State} (h : Run.Reaches (system old) Run.anyStep s) :
    s.Sound := by
  have hstart : (system old).start.Sound := ⟨(fun _ hb => nomatch hb), fun _ _ _ hloop => nomatch hloop⟩
  exact h.invariant hstart fun _ _ _ hs _ hst => hs.step hst

/-- **The push is as found.**  In every run, whatever Telegram answers and wherever the process
ends, a push is remembered exactly when the last call that ended well, and could read the facts,
found them critical. -/
theorem push_as_found {old : Old} {s : State} (h : Run.Reaches (system old) Run.anyStep s)
    (b : Bool) (hfound : s.found = some b) : s.guardian.push?.isSome = b :=
  (State.sound h).honest b hfound

theorem push_as_found_outage : ∃ s : State, s.guardian.push?.isSome = true := by
  obtain ⟨s, hs, hfinal⟩ := Run.Reaches.exists_of_play (system fresh) (fun _ _ => true) outage
    (fun s => s.found = some true) (by decide +kernel)
  exact ⟨s, push_as_found (hs.mono fun _ _ _ => trivial) true (of_decide_eq_true hfinal)⟩

/-! ## what a step says -/

/-- What one await of `publish` does to the chat. -/
structure Says (g g' : Guardian) (stage : Stage) : Prop where
  /-- A new message is the push, and goes out on critical facts. -/
  posts : ∀ (message : Nat) (text : String), g.chat.get? message = none →
    g'.chat.get? message = some text →
      text = attentionText ∧ ∃ facts, stage = .sending facts ∧ critical facts = true
  /-- A message that changes was written down, as the push or by the previous design. -/
  edits : ∀ (message : Nat) (text text' : String), g.chat.get? message = some text →
    g'.chat.get? message = some text' → text' ≠ text →
      ∃ key, g.notifications.get? key = some message ∧
        (if key = pushKey then text' = attentionText ∨ text' = resolvedText
          else text' = retiredText)

namespace Says

variable {g g' : Guardian} {stage : Stage}

theorem same (h : g'.chat = g.chat) : Says g g' stage where
  posts message text hnone hsome := by
    rw [h, hnone] at hsome
    cases hsome
  edits message text text' hold hnew hne := by
    rw [h, hold] at hnew
    exact absurd (Option.some.inj hnew).symm hne

/-- A message that is written down is edited. -/
theorem edit {message : Nat} {key : String} (text : String) (answer : Answer)
    (hkey : g.notifications.get? key = some message)
    (htext : if key = pushKey then text = attentionText ∨ text = resolvedText
      else text = retiredText)
    (h : g'.chat = (g.edit message text answer).1.chat) : Says g g' stage := by
  obtain ⟨hedit, -⟩ | hedit := g.edit_cases message text answer
  · rw [hedit] at h
    exact .same h
  · rw [hedit] at h
    constructor
    · intro i new hnone hsome
      rw [h, Table.get?_modify] at hsome
      split at hsome
      · next hi =>
        rw [← hi, hnone] at hsome
        cases hsome
      · rw [hnone] at hsome
        cases hsome
    · intro i old new hold hnew hne
      rw [h, Table.get?_modify] at hnew
      split at hnew
      · next hi =>
        obtain ⟨-, -, rfl⟩ := Option.map_eq_some_iff.mp hnew
        exact ⟨key, hi ▸ hkey, htext⟩
      · rw [hold] at hnew
        exact absurd (Option.some.inj hnew).symm hne

/-- The owner deletes a message. -/
theorem deleted {message : Nat} (h : g'.chat = g.chat.delete fun i _ => i == message) :
    Says g g' stage where
  posts i text hnone hsome := by
    rw [h, Table.get?_delete, hnone] at hsome
    cases hsome
  edits i text text' hold hnew hne := by
    rw [h, Table.get?_delete, hold] at hnew
    exact absurd (Option.some.inj (Option.filter_eq_some_iff.mp hnew).1).symm hne

theorem post {facts : Facts} (hstage : stage = .sending facts) (hcritical : critical facts = true)
    (h : g'.chat = g.chat.insert attentionText) : Says g g' stage where
  posts message text hnone hsome := by
    rw [h, Table.get?_insert] at hsome
    split at hsome
    · exact ⟨(Option.some.inj hsome).symm, facts, hstage, hcritical⟩
    · rw [hnone] at hsome
      cases hsome
  edits message text text' hold hnew hne := by
    rw [h, Table.get?_insert, if_neg (Nat.ne_of_lt (Table.lt_next hold)), hold] at hnew
    exact absurd (Option.some.inj hnew).symm hne

end Says

theorem Went.says {g : Guardian} {stage : Stage} {read read' : Option Facts} {e : Event}
    {outcome : Guardian.Outcome} (h : Went g stage read e read' outcome)
    (hstage : stage.Sound g read) : Says g outcome.guardian stage := by
  have hasked {facts : Option Facts} (h : g.asked facts stage = some outcome) :
      Says g outcome.guardian stage := by
    refine .same ?_
    cases stage with
    | asking =>
      simp only [Guardian.asked] at h
      split at h
      · exact Option.some.inj h ▸ rfl
      · split at h
        · exact Option.some.inj h ▸ rfl
        · obtain rfl := Option.some.inj h
          split <;> rfl
    | _ => cases h
  cases h with
  | asked h | unread h => exact hasked h
  | @edited answer written _ h =>
    cases stage with
    | retiring left remembered =>
      cases left with
      | nil => cases h
      | cons first left =>
        obtain ⟨hkey, hne⟩ := hstage.1 first List.mem_cons_self
        refine .edit retiredText answer hkey (by rw [if_neg hne]) ?_
        simp only [Guardian.edited] at h
        split at h
        · obtain rfl := Option.some.inj h
          split <;> rfl
        · exact Option.some.inj h ▸ rfl
    | editing message facts =>
      refine .edit attentionText answer hstage.1 (by simp) ?_
      simp only [Guardian.edited] at h
      split at h
      · next hedit =>
        obtain rfl := Option.some.inj h
        rw [hedit]
        rfl
      · next hedit =>
        obtain rfl := Option.some.inj h
        rw [hedit]
        rfl
    | resolving message =>
      refine .edit resolvedText answer hstage.1 (by simp) ?_
      simp only [Guardian.edited] at h
      obtain rfl := Option.some.inj h
      split <;> rfl
    | _ => cases h
  | @sent answer written _ h =>
    cases stage with
    | sending facts =>
      simp only [Guardian.sent] at h
      split at h
      · exact Option.some.inj h ▸ .same rfl
      · exact Option.some.inj h ▸ .post rfl hstage.1 rfl
      · obtain rfl := Option.some.inj h
        split <;> exact .post rfl hstage.1 rfl
    | _ => cases h

@[simp] theorem State.guardian_after {s : State} {alert : Nat × Alert} {left : List (Nat × Alert)}
    {outcome : Guardian.Outcome} : (s.after alert left outcome).guardian = outcome.guardian := by
  cases outcome <;> rfl

/-- What a step does to the chat is what the call of `publish` does, if there is one. -/
theorem says_step {s t : State} {e : Event} (hs : s.Sound) (h : step s e = some t) :
    ∃ stage, Says s.guardian t.guardian stage ∧
      (stage = .asking ∨ ∃ alert left, s.loop = .publishing alert left stage) := by
  have hquiet (hchat : t.guardian.chat = s.guardian.chat) : ∃ stage,
      Says s.guardian t.guardian stage ∧
        (stage = .asking ∨ ∃ alert left, s.loop = .publishing alert left stage) :=
    ⟨.asking, .same hchat, .inl rfl⟩
  cases moved_step h with
  | same hlike | wakes hlike => exact hquiet (by rw [hlike.guardian])
  | decides | skips | sleeps | claims | absent | marks | reports | restarts => exact hquiet rfl
  | begins =>
    refine hquiet ?_
    rw [State.guardian_after]
    unfold Guardian.begin
    simp only
    split <;> rfl
  | goes hloop ha hf hm hwent =>
    refine ⟨_, ?_, .inr ⟨_, _, hloop⟩⟩
    rw [State.guardian_after]
    exact hwent.says (hs.stage _ _ _ hloop)
  | deletes => exact ⟨.asking, .deleted rfl, .inl rfl⟩

/-- **Speaks on critical facts only.**  In every run a message the guardian posts is the push, posted
on facts that are critical, in the publication of an alert; and a message it changes is one it had
written down: the push asks for attention or goes green, one of the previous design is retired. -/
theorem speaks_when_critical {old : Old} {s t : State} {e : Event}
    (h : Run.Reaches (system old) Run.anyStep s) (hst : step s e = some t) :
    (∀ (message : Nat) (text : String), s.guardian.chat.get? message = none →
      t.guardian.chat.get? message = some text →
        text = attentionText ∧ ∃ (alert : Nat × Alert) (left : List (Nat × Alert)) (facts : Facts),
          s.loop = .publishing alert left (.sending facts) ∧ critical facts = true) ∧
    ∀ (message : Nat) (text text' : String), s.guardian.chat.get? message = some text →
      t.guardian.chat.get? message = some text' → text' ≠ text →
        ∃ key, s.guardian.notifications.get? key = some message ∧
          (if key = pushKey then text' = attentionText ∨ text' = resolvedText
            else text' = retiredText) := by
  obtain ⟨stage, hsays, hstage⟩ := says_step (State.sound h) hst
  refine ⟨fun message text hnone hsome => ?_, hsays.edits⟩
  obtain ⟨htext, facts, hsending, hcritical⟩ := hsays.posts message text hnone hsome
  refine ⟨htext, ?_⟩
  obtain hasking | ⟨alert, left, hloop⟩ := hstage
  · rw [hasking] at hsending
    cases hsending
  · exact ⟨alert, left, facts, hsending ▸ hloop, hcritical⟩

theorem speaks_when_critical_outage : ∃ s : State,
    ∃ (alert : Nat × Alert) (left : List (Nat × Alert)) (facts : Facts),
      s.loop = .publishing alert left (.sending facts) ∧ critical facts = true := by
  obtain ⟨s, hs, hfinal⟩ := Run.Reaches.exists_of_play (system fresh) (fun _ _ => true)
    (outage.take 14)
    (fun s => s.guardian.chat.get? 1 = none && ((step s (.sent .lost true)).any fun t =>
      t.guardian.chat.get? 1 = some attentionText)) (by decide +kernel)
  simp only [Bool.and_eq_true, decide_eq_true_eq, Option.any_eq_true] at hfinal
  obtain ⟨hnone, t, hst, hsome⟩ := hfinal
  exact ⟨s, ((speaks_when_critical (hs.mono fun _ _ _ => trivial) hst).1 1 _ hnone hsome).2⟩

/-! ## one push at a time -/

/-- Telegram answers, an edit is refused only where the message is gone, and a push that is posted
is written down. -/
def prompt (_ : State) : Event → Bool
  | .edited answer _ => answer = .served
  | .sent answer written => answer = .refused ∨ answer = .served ∧ written = true
  | _ => true

/-- A message that asks for attention is the push that is remembered. -/
def Guardian.One (g : Guardian) : Prop :=
  ∀ message, g.chat.get? message = some attentionText → g.push? = some message

theorem retiredText_ne_attentionText : retiredText ≠ attentionText := by decide +kernel

theorem resolvedText_ne_attentionText : resolvedText ≠ attentionText := by decide +kernel

/-- No message asks for attention. -/
def Guardian.Quiet (g : Guardian) : Prop := ∀ message, g.chat.get? message ≠ some attentionText

/-- What a call relies on, once Telegram answers. -/
def Stage.Alone (g : Guardian) : Stage → Prop
  | .sending _ => g.Quiet
  | _ => True

namespace Guardian

variable {g : Guardian}

def Outcome.Alone : Outcome → Prop
  | .goesOn g stage => g.One ∧ stage.Alone g
  | .returns g | .raises g => g.One

theorem Quiet.one (h : g.Quiet) : g.One := fun message hmessage => absurd hmessage (h message)

/-- Nothing is remembered, and nothing asks. -/
theorem One.quiet (h : g.One) (hnone : g.push? = none) : g.Quiet := fun message hmessage => by
  rw [h message hmessage] at hnone
  cases hnone

theorem One.of_push {g' : Guardian} (h : g.One) (hchat : g'.chat = g.chat)
    (hpush : g'.push? = g.push?) : g'.One := by
  intro message hmessage
  rw [hchat] at hmessage
  rw [hpush]
  exact h message hmessage

/-- A message that asks was asking before, or has just been edited to. -/
theorem asks_edit {message i : Nat} {text : String} {answer : Answer}
    (h : (g.edit message text answer).1.chat.get? i = some attentionText) :
    g.chat.get? i = some attentionText ∧ (i ≠ message ∨ answer ≠ .served) ∨
      i = message ∧ text = attentionText := by
  obtain ⟨hedit, hwhy⟩ | hedit := g.edit_cases message text answer
  · rw [hedit] at h
    refine .inl ⟨h, ?_⟩
    obtain hnone | hrefused := hwhy
    · left
      rintro rfl
      rw [hnone] at h
      cases h
    · right
      simp [hrefused]
  · rw [hedit] at h
    simp only [Table.get?_modify] at h
    split at h
    · next hi =>
      obtain ⟨-, -, htext⟩ := Option.map_eq_some_iff.mp h
      exact .inr ⟨hi, htext⟩
    · next hi => exact .inl ⟨h, .inl hi⟩

/-- A message is edited to say something else. -/
theorem One.edit {message : Nat} {text : String} {answer : Answer} (h : g.One)
    (htext : text ≠ attentionText) : (g.edit message text answer).1.One := by
  intro i hi
  rw [push?_edit]
  obtain ⟨hold, -⟩ | ⟨-, hsame⟩ := asks_edit hi
  · exact h i hold
  · exact absurd hsame htext

theorem begin_alone (h : g.One) : g.begin.Alone := by
  have hkept : ({ g with retired := true } : Guardian).One := h
  unfold begin
  simp only
  split
  · exact ⟨hkept, trivial⟩
  · exact ⟨hkept, trivial⟩

theorem asked_alone {facts : Option Facts} {stage : Stage} {outcome : Outcome} (hg : g.One)
    (h : g.asked facts stage = some outcome) : outcome.Alone := by
  cases stage with
  | asking =>
    simp only [asked] at h
    split at h
    · exact Option.some.inj h ▸ hg
    · split at h
      · obtain rfl := Option.some.inj h
        refine ⟨hg, ?_⟩
        split <;> trivial
      · next hnone =>
        obtain rfl := Option.some.inj h
        split
        · exact ⟨hg, hg.quiet hnone⟩
        · exact hg
  | _ => cases h

theorem edited_alone {answer : Answer} {written : Bool} {stage : Stage} {outcome : Outcome}
    {read : Option Facts} (hg : g.One) (hstage : stage.Sound g read) (hserved : answer = .served)
    (h : g.edited answer written stage = some outcome) : outcome.Alone := by
  cases stage with
  | retiring left remembered =>
    obtain ⟨hleft, hremembered, -⟩ := hstage
    cases left with
    | nil => cases h
    | cons first left =>
      obtain ⟨key, message⟩ := first
      have hkey : pushKey ≠ key := Ne.symm (hleft _ List.mem_cons_self).2
      have hedited : (g.edit message retiredText answer).1.One := hg.edit retiredText_ne_attentionText
      simp only [edited] at h
      split at h
      · obtain rfl := Option.some.inj h
        split
        · refine ⟨hedited.of_push rfl ?_, trivial⟩
          rw [push?_edit]
          show (remembered.erase key).get? pushKey = g.push?
          rw [Dict.get?_erase, if_neg hkey]
          exact hremembered
        · exact hedited
      · exact Option.some.inj h ▸ ⟨hedited, trivial⟩
  | editing message facts =>
    have hpush := hstage.1
    simp only [edited] at h
    split at h
    · next g' hedit =>
      obtain rfl := Option.some.inj h
      intro i hi
      have hi : (g.edit message attentionText answer).1.chat.get? i = some attentionText := by
        rw [hedit]
        exact hi
      show g'.push? = some i
      rw [show g'.push? = g.push? by rw [← g.push?_edit message attentionText answer, hedit]]
      obtain ⟨hold, -⟩ | ⟨rfl, -⟩ := asks_edit hi
      · exact hg i hold
      · exact hpush
    · next g' hedit =>
      obtain rfl := Option.some.inj h
      -- Telegram answers, so the push is not there any more.
      obtain ⟨hsame, hwhy⟩ | happlied := g.edit_cases message attentionText answer
      · rw [hsame] at hedit
        obtain rfl : g = g' := congrArg Prod.fst hedit
        refine ⟨hg, fun i hi => ?_⟩
        obtain hgone | hrefused := hwhy
        · obtain rfl : message = i := Option.some.inj (hpush.symm.trans (hg i hi))
          rw [hgone] at hi
          cases hi
        · rw [hserved] at hrefused
          cases hrefused
      · rw [happlied, hserved] at hedit
        cases congrArg Prod.snd hedit
  | resolving message =>
    simp only [edited] at h
    obtain rfl := Option.some.inj h
    split
    · -- The push was the only one that asked, and it has gone green.
      refine Quiet.one fun i hi => ?_
      obtain ⟨hold, hother⟩ | ⟨-, hsame⟩ := asks_edit hi
      · obtain rfl : message = i := Option.some.inj (hstage.1.symm.trans (hg i hold))
        simp [hserved] at hother
      · exact absurd hsame resolvedText_ne_attentionText
    · exact hg.edit resolvedText_ne_attentionText
  | _ => cases h

theorem sent_alone {answer : Answer} {written : Bool} {stage : Stage} {outcome : Outcome}
    (hg : g.One) (hstage : stage.Alone g)
    (hprompt : answer = .refused ∨ answer = .served ∧ written = true)
    (h : g.sent answer written stage = some outcome) : outcome.Alone := by
  cases stage with
  | sending facts =>
    obtain rfl | ⟨rfl, rfl⟩ := hprompt
    · exact Option.some.inj h ▸ hg
    · obtain rfl := Option.some.inj h
      intro i hi
      show (g.notifications.insert pushKey g.chat.next).get? pushKey = some i
      rw [Dict.get?_insert, if_pos rfl]
      simp only [Table.get?_insert] at hi
      split at hi
      · next hnext => rw [hnext]
      · exact absurd hi (hstage i)
  | _ => cases h

end Guardian

theorem Went.alone {g : Guardian} {stage : Stage} {read read' : Option Facts} {s : State}
    {e : Event} {outcome : Guardian.Outcome} (h : Went g stage read e read' outcome) (hg : g.One)
    (hsound : stage.Sound g read) (hstage : stage.Alone g) (hprompt : prompt s e = true) : outcome.Alone := by
  cases h with
  | asked h | unread h => exact Guardian.asked_alone hg h
  | edited h => exact Guardian.edited_alone hg hsound (by simpa [prompt] using hprompt) h
  | sent h => exact Guardian.sent_alone hg hstage (by simpa [prompt] using hprompt) h

structure State.Alone (s : State) : Prop where
  one : s.guardian.One
  stage : ∀ (alert : Nat × Alert) (left : List (Nat × Alert)) (stage : Stage),
    s.loop = .publishing alert left stage → stage.Alone s.guardian

namespace State.Alone

variable {s t : State} {e : Event}

theorem after {alert : Nat × Alert} {left : List (Nat × Alert)} {outcome : Guardian.Outcome}
    (h : outcome.Alone) : (s.after alert left outcome).Alone := by
  cases outcome with
  | goesOn g stage =>
    refine ⟨h.1, fun alert' left' stage' hloop => ?_⟩
    cases hloop
    exact h.2
  | returns g | raises g => exact ⟨h, fun _ _ _ hloop => nomatch hloop⟩

theorem step (hs : s.Alone) (hsound : s.Sound) (hprompt : prompt s e = true)
    (h : Service.step s e = some t) : t.Alone := by
  cases moved_step h with
  | same hlike hl =>
    refine ⟨hlike.guardian ▸ hs.one, fun alert left stage hloop => ?_⟩
    rw [hlike.guardian]
    exact hs.stage alert left stage (hl ▸ hloop)
  | wakes hlike hl =>
    refine ⟨hlike.guardian ▸ hs.one, fun alert left stage hloop => ?_⟩
    rw [hl] at hloop
    cases hloop
  | decides | skips | sleeps | claims | absent | marks =>
    exact ⟨hs.one, fun _ _ _ hloop => nomatch hloop⟩
  | begins => exact .after (Guardian.begin_alone hs.one)
  | goes hloop ha hf hm hwent =>
    exact .after (hwent.alone hs.one (hsound.stage _ _ _ hloop) (hs.stage _ _ _ hloop) hprompt)
  | reports => exact ⟨hs.one, hs.stage⟩
  | @deletes message =>
    have hfewer (i : Nat)
        (hi : (s.guardian.chat.delete fun j _ => j == message).get? i = some attentionText) :
        s.guardian.chat.get? i = some attentionText := by
      rw [Table.get?_delete] at hi
      exact (Option.filter_eq_some_iff.mp hi).1
    refine ⟨fun i hi => hs.one i (hfewer i hi), fun alert left stage hloop => ?_⟩
    have hold := hs.stage alert left stage hloop
    cases stage with
    | sending facts => exact fun i hi => hold i (hfewer i hi)
    | _ => trivial
  | restarts => exact ⟨hs.one, fun _ _ _ hloop => nomatch hloop⟩

end State.Alone

/-- **One push.**  As long as Telegram answers and the push is written down, at most one message
asks for attention, and it is the one that is remembered; once a call has ended well on facts that
are not critical, none does, until the next push. -/
theorem one_push {old : Old} {s : State}
    (h : Run.Reaches (system old) (fun s e => prompt s e = true) s) :
    (∀ message, s.guardian.chat.get? message = some attentionText →
      s.guardian.push? = some message) ∧
    (s.found = some false →
      ∀ message, s.guardian.chat.get? message ≠ some attentionText) := by
  have hsound (s : State) (h : Run.Reaches (system old) (fun s e => prompt s e = true) s) :
      s.Sound :=
    State.sound (h.mono fun _ _ _ => trivial)
  have hstart : (system old).start.Alone :=
    ⟨fun message hmessage => absurd hmessage (old.quiet message), fun _ _ _ hloop => nomatch hloop⟩
  have hs : s.Alone := h.invariant_of hsound hstart fun _ _ _ hsound hs hprompt hst =>
    hs.step hsound hprompt hst
  refine ⟨hs.one, fun hfound => hs.one.quiet ?_⟩
  have hnone := (hsound s h).honest false hfound
  cases hpush : s.guardian.push? with
  | none => rfl
  | some message =>
    rw [hpush] at hnone
    cases hnone

theorem one_push_recovered : ∃ s : State, s.guardian.chat.get? 1 = some resolvedText ∧
    ∀ message, s.guardian.chat.get? message ≠ some attentionText := by
  obtain ⟨s, hs, hfinal⟩ := Run.Reaches.exists_of_play (system fresh) prompt (outage ++ recovery)
    (fun s => s.guardian.chat.get? 1 = some resolvedText && s.found = some false)
    (by decide +kernel)
  simp only [Bool.and_eq_true, decide_eq_true_eq] at hfinal
  exact ⟨s, hfinal.1, (one_push hs).2 hfinal.2⟩

end Telemax.Service
