import Telemax.Bridge.Recovery

/-!
# Telemax.Bridge.Echo

MAX pushes back every message the bridge sends into it.  `on_max_message` knows
such an echo by a mapping row of our own that carries its MAX id, and that id is
written when the answer to the send is settled: a second event on the same
socket.  `Guarded` is what holds while no echo is looked up before the answer of
its send has been attached to a mapping row.
-/

namespace Telemax.Bridge

open MessageMap

/-! ## the condition -/

/-- The answer of this send has been written onto the row its job names. -/
def State.attached (s : State) (p : Posted) : Bool :=
  s.stage p.attempt == .answered p.messageId &&
    (s.queue.attempts.get? p.attempt).any fun x => (State.linkOf x.spec.payload).isSome

/-- The answer of a send finds the row recorded for it, with no other MAX id. -/
def answersOwnRow (s : State) (a : Nat) : Bool :=
  match s.queue.attempts.get? a, s.stage a with
  | some x, .created message =>
      match State.linkOf x.spec.payload with
      | some link =>
          (s.map.get? link).any fun r =>
            r.direction == .tgToMax && r.sourceMarker == .fromTg &&
              State.chatOf x.spec.payload == some r.maxChatId &&
              (r.maxMessageId.isNone || r.maxMessageId == some message)
      | none => true
  | _, _ => true

/-- An echo is looked up after the answer of its send was attached, or the
owner's own messages are not mirrored; an answer finds its own row. -/
def echoAfterAnswer (s : State) : Event → Bool
  | .check h mirror =>
      match s.inbound.get? h with
      | some y =>
          !mirror || s.posted.all fun p =>
            !(p.chatId == y.message.chatId && p.messageId == y.message.messageId) || s.attached p
      | none => true
  | .answer a => answersOwnRow s a
  | _ => true

/-! ## attempts and ids under an event -/

theorem After.attempt_kept {s t : State} {e : Event} (h : After s t e) {a : Nat} {x : Attempt}
    (hx : s.queue.attempts.get? a = some x) :
    ∃ y, t.queue.attempts.get? a = some y ∧ y.spec = x.spec ∧
      (x.phase.mayHaveFired = true → y.job = x.job ∧ y.phase.mayHaveFired = true) := by
  have hstep : ∀ qe, Queue.step s.queue qe = some t.queue →
      ∃ y, t.queue.attempts.get? a = some y ∧ y.spec = x.spec ∧
        (x.phase.mayHaveFired = true → y.job = x.job ∧ y.phase.mayHaveFired = true) := by
    intro qe hq
    obtain ⟨y, hy, hc⟩ := (Queue.step_after hq).attempt_kept hx
    exact ⟨y, hy, hc.spec_eq, hc.mayHaveFired⟩
  cases h.queue with
  | same hq =>
      rw [hq]
      exact ⟨x, hx, rfl, fun hp => ⟨rfl, hp⟩⟩
  | queue _ hq | crash hq | deliver _ hq => exact hstep _ hq
  | write _ hq _ =>
      rw [hq]
      exact ⟨x, hx, rfl, fun hp => ⟨rfl, hp⟩⟩

/-- A row's remote id was there before, or is the one an attempt has just delivered. -/
theorem After.remote_from {s t : State} {e : Event} (h : After s t e) {i : Nat}
    {r' : OutboxItem} {m : Int} (hr' : t.queue.outbox.get? i = some r')
    (hm : r'.remoteMessageId = some m) :
    ∃ r, s.queue.outbox.get? i = some r ∧ SameJob r r' ∧
      (r.remoteMessageId = some m ∨ ∃ a x backoff,
        e = .queue (.settle a (.delivered (some m)) backoff) ∧
          s.allows (.settle a (.delivered (some m)) backoff) = true ∧
          s.queue.attempts.get? a = some x ∧ x.phase = .inSender ∧ x.job = i) := by
  have hother : ∀ qe, Queue.step s.queue qe = some t.queue →
      (∀ a o backoff, qe ≠ .settle a o backoff) →
      ∃ r, s.queue.outbox.get? i = some r ∧ SameJob r r' ∧ r.remoteMessageId = some m := by
    intro qe hq hne
    rcases (Queue.step_after hq).row_from hr' with ⟨r, hr, hc⟩ | ⟨-, hborn⟩
    · rcases hc.remote with hsame | ⟨a, x, o, backoff, he, -⟩
      · exact ⟨r, hr, hc.sameJob, hsame ▸ hm⟩
      · exact absurd he (hne a _ backoff)
    · rw [hborn.remote] at hm
      cases hm
  cases h.queue with
  | same hq =>
      rw [hq] at hr'
      exact ⟨r', hr', ⟨rfl, rfl, rfl, rfl⟩, .inl hm⟩
  | queue hok hq =>
      next qe =>
      rcases (Queue.step_after hq).row_from hr' with ⟨r, hr, hc⟩ | ⟨-, hborn⟩
      · refine ⟨r, hr, hc.sameJob, ?_⟩
        rcases hc.remote with hsame | ⟨a, x, o, backoff, rfl, hx, hp, hj, ho⟩
        · exact .inl (hsame ▸ hm)
        · rw [ho] at hm
          subst hm
          exact .inr ⟨a, x, backoff, rfl, hok, hx, hp, hj⟩
      · rw [hborn.remote] at hm
        cases hm
  | crash hq =>
      obtain ⟨r, hr, hsame, hm⟩ := hother _ hq (by simp)
      exact ⟨r, hr, hsame, .inl hm⟩
  | deliver _ hq =>
      obtain ⟨r, hr, hsame, hm⟩ := hother _ hq (by simp)
      exact ⟨r, hr, hsame, .inl hm⟩
  | write _ hq hw =>
      rw [hq] at hr'
      cases hr : s.queue.outbox.get? i with
      | none =>
          rw [hw.2 i r' hr hr'] at hm
          cases hm
      | some r =>
          obtain ⟨r'', hr'', hsame, hremote⟩ := hw.1 i r hr
          obtain rfl := Option.some.inj (hr''.symm.trans hr')
          exact ⟨r, rfl, hsame, .inl (hremote ▸ hm)⟩

/-- What settling an answer has written onto the mapping. -/
theorem answer_attached {s t : State} {a link : Nat} {x : Attempt} {message : Int}
    (hst : step s (.answer a) = some t) (hx : s.queue.attempts.get? a = some x)
    (hcreated : s.stage a = .created message) (hlink : State.linkOf x.spec.payload = some link)
    (hanswered : t.stage a = .answered message) :
    s.map.attachMaxMessage link message = some t.map := by
  simp only [step, State.answer, hx, hcreated, hlink] at hst
  split at hst
  · split at hst
    · next map hmap =>
        obtain rfl := Option.some.inj hst
        exact hmap
    · obtain rfl := Option.some.inj hst
      simp at hanswered
  · cases hst

/-! ## the invariant -/

/-- This incoming message is the echo of that send. -/
def Posted.echoedBy (p : Posted) (m : IncomingMax) : Prop :=
  m.chatId = p.chatId ∧ m.messageId = p.messageId

/-- The message of a send is not claimed as one from MAX, and no call of
`on_max_message` has got as far as claiming it. -/
def NeverClaimed (s : State) (p : Posted) : Prop :=
  (∀ i r, s.map.get? i = some r → r.maxChatId = p.chatId → r.maxMessageId = some p.messageId →
    r.sourceMarker = .fromTg) ∧
  ∀ h y, s.inbound.get? h = some y → p.echoedBy y.message →
    y.phase = .received ∨ y.phase.running = false

/-- The mapping row a send's job names carries the id the answer brought. -/
def CarriesId (s : State) (a : Nat) (message : Int) : Prop :=
  ∀ x link, s.queue.attempts.get? a = some x → State.linkOf x.spec.payload = some link →
    ∃ r, s.map.get? link = some r ∧ r.direction = .tgToMax ∧ r.sourceMarker = .fromTg ∧
      State.chatOf x.spec.payload = some r.maxChatId ∧ r.maxMessageId = some message

structure Guarded (s : State) : Prop where
  staged : ∀ a, s.stage a ≠ .calling → ∃ x, s.queue.attempts.get? a = some x
  carries : ∀ a message, s.stage a = .answered message → CarriesId s a message
  sender : ∀ p ∈ s.posted, ∃ x, s.queue.attempts.get? p.attempt = some x ∧
    State.chatOf x.spec.payload = some p.chatId
  outgoing : ∀ p ∈ s.posted, ∀ h y, s.inbound.get? h = some y → p.echoedBy y.message →
    y.message.isOutgoing = true
  unclaimed : ∀ p ∈ s.posted, NeverClaimed s p
  settled : ∀ i r m, s.queue.outbox.get? i = some r →
    State.ownSend r.direction r.kind = true → r.remoteMessageId = some m →
    ∃ a x, s.queue.attempts.get? a = some x ∧ x.job = i ∧ x.phase.mayHaveFired = true ∧
      s.stage a = .answered m

theorem Guarded.start : Guarded system.start where
  staged := fun _ h => absurd rfl h
  carries := fun _ _ h => by cases h
  sender := fun _ h => by cases h
  outgoing := fun _ h => by cases h
  unclaimed := fun _ h => by cases h
  settled := fun _ _ _ h => by simp [system] at h

/-! ### one step keeps each part -/

section step

variable {s t : State} {e : Event}

theorem Guarded.staged_step (hs : Guarded s) (h : After s t e) (a : Nat)
    (ha : t.stage a ≠ .calling) : ∃ x, t.queue.attempts.get? a = some x := by
  have hold : ∃ x, s.queue.attempts.get? a = some x := by
    have hchange := h.stage a
    generalize t.stage a = g at hchange ha
    cases hchange with
    | same => exact hs.staged a ha
    | created hx => exact ⟨_, hx⟩
    | answered hstage | broken hstage => exact hs.staged a (by simp [hstage])
  obtain ⟨x, hx⟩ := hold
  obtain ⟨y, hy, -⟩ := h.attempt_kept hx
  exact ⟨y, hy⟩

/-- A row that carries the id of an answer keeps it: it is one of our own, so it
is not released, and no other answer replaces the id. -/
theorem carries_kept (hrel : ReleasesUnsent s) (h : After s t e) {link : Nat} {r : MessageLink}
    {message : Int} (hr : s.map.get? link = some r) (hdir : r.direction = .tgToMax)
    (hm : r.maxMessageId = some message) :
    ∃ r', t.map.get? link = some r' ∧ r'.direction = .tgToMax ∧
      r'.sourceMarker = r.sourceMarker ∧ r'.maxChatId = r.maxChatId ∧
      r'.maxMessageId = some message := by
  have hlink := h.link link
  unfold LinkAfter at hlink
  rw [hr] at hlink
  rcases hlink with ⟨r', hr', hc⟩ | ⟨-, -, todo, hrec⟩
  · refine ⟨r', hr', ?_⟩
    cases hc with
    | same | telegram | owner => exact ⟨hdir, rfl, rfl, hm⟩
    | answered _ _ _ hfree =>
        rcases hfree with hfree | hfree
        · rw [hm] at hfree
          cases hfree
        · exact ⟨hdir, rfl, rfl, hfree.symm.trans hm⟩
  · simp only [ReleasesUnsent, hrec] at hrel
    have hu := hrel.1 link List.mem_cons_self r hr
    simp [unsentClaim, hdir] at hu

theorem Guarded.carries_step (hs : Guarded s) (hrel : ReleasesUnsent s) (h : After s t e)
    (hok : echoAfterAnswer s e = true) (hst : step s e = some t) (a : Nat) (message : Int)
    (ha : t.stage a = .answered message) : CarriesId t a message := by
  intro y link hy hlink
  have hchange := h.stage a
  rw [ha] at hchange
  generalize hg : Stage.answered message = g at hchange
  cases hchange with
  | same =>
      obtain ⟨x, hx⟩ := hs.staged a (by simp [← hg])
      obtain ⟨y', hy', hspec, -⟩ := h.attempt_kept hx
      obtain rfl := Option.some.inj (hy'.symm.trans hy)
      rw [hspec] at hlink ⊢
      obtain ⟨r, hr, hdir, hmark, hchat, hm⟩ := hs.carries a message hg.symm x link hx hlink
      obtain ⟨r', hr', hdir', hmark', hchat', hm'⟩ := carries_kept hrel h hr hdir hm
      exact ⟨r', hr', hdir', hmark'.trans hmark, by rw [hchat', hchat], hm'⟩
  | answered hcreated =>
      cases hg
      obtain ⟨x, hx⟩ := hs.staged a (by simp [hcreated])
      obtain ⟨y', hy', hspec, -⟩ := h.attempt_kept hx
      obtain rfl := Option.some.inj (hy'.symm.trans hy)
      rw [hspec] at hlink ⊢
      have hmap := answer_attached hst hx hcreated hlink ha
      simp only [echoAfterAnswer, answersOwnRow, hx, hcreated, hlink, Option.any_eq_true,
        Bool.and_eq_true, beq_iff_eq] at hok
      obtain ⟨r, hr, ⟨⟨hdir, hmark⟩, hchat⟩, hfree⟩ := hok
      refine ⟨{ r with maxMessageId := some message }, ?_, hdir, hmark, hchat, rfl⟩
      rw [tryUpdate_get? hmap, hr, Option.map_some,
        if_pos (by rw [beq_self_eq_true, Bool.true_and]; exact hfree)]
  | created => cases hg
  | broken => cases hg

theorem Guarded.sender_step (hs : Guarded s) (h : After s t e) (p : Posted) (hp : p ∈ t.posted) :
    ∃ x, t.queue.attempts.get? p.attempt = some x ∧
      State.chatOf x.spec.payload = some p.chatId := by
  have hold : ∃ x, s.queue.attempts.get? p.attempt = some x ∧
      State.chatOf x.spec.payload = some p.chatId := by
    rcases h.posted with hsame | ⟨a, x, chat, message, -, hx, hchat, -, hnew⟩
    · exact hs.sender p (hsame ▸ hp)
    · rw [hnew] at hp
      rcases List.mem_cons.mp hp with rfl | hp
      · exact ⟨x, hx, hchat⟩
      · exact hs.sender p hp
  obtain ⟨x, hx, hchat⟩ := hold
  obtain ⟨y, hy, hspec, -⟩ := h.attempt_kept hx
  exact ⟨y, hy, by rw [hspec, hchat]⟩

/-- A message MAX has just created under a new id is nowhere yet. -/
theorem not_known {chat message : Int} (hk : s.known chat message = false) :
    (∀ i r, s.map.get? i = some r → r.maxChatId = chat → r.maxMessageId ≠ some message) ∧
      ∀ h y, s.inbound.get? h = some y → y.message.chatId = chat →
        y.message.messageId ≠ message := by
  simp only [State.known, Bool.or_eq_false_iff] at hk
  obtain ⟨⟨-, hmap⟩, hinbound⟩ := hk
  rw [← Bool.not_eq_true, Table.holdsOf_iff] at hmap hinbound
  exact ⟨fun i r hr hc hm => hmap ⟨i, r, hr, by simp [hc, hm]⟩,
    fun h y hy hc hm => hinbound ⟨h, y, hy, by simp [hc, hm]⟩⟩

/-- A call that is there after a step was there before, of the same message, or
has just arrived. -/
theorem After.handler_from (h : After s t e) {g : Nat} {y' : Inbound}
    (hy' : t.inbound.get? g = some y') :
    (∃ y, s.inbound.get? g = some y ∧ y.message = y'.message ∧
      HandlerChange s g y e y'.phase) ∨
    y'.phase = .received ∧ e = .arrive y'.target y'.message := by
  rcases h.handler g y' hy' with ⟨y, hy, heq, hc⟩ | ⟨-, hp, he⟩
  · exact .inl ⟨y, hy, by rw [heq], hc⟩
  · exact .inr ⟨hp, he⟩

theorem Guarded.outgoing_step (hs : Guarded s) (h : After s t e) (hst : step s e = some t)
    (p : Posted) (hp : p ∈ t.posted) (g : Nat) (y' : Inbound) (hy' : t.inbound.get? g = some y')
    (hecho : p.echoedBy y'.message) : y'.message.isOutgoing = true := by
  have hmem : p ∈ s.posted ∨ s.known p.chatId p.messageId = false ∧
      ∃ a message, e = .post a message := by
    rcases h.posted with hsame | ⟨a, x, chat, message, he, -, -, hk, hnew⟩
    · exact .inl (hsame ▸ hp)
    · rw [hnew] at hp
      rcases List.mem_cons.mp hp with rfl | hp
      · exact .inr ⟨hk, a, message, he⟩
      · exact .inl hp
  rcases h.handler_from hy' with ⟨y, hy, hmsg, -⟩ | ⟨-, rfl⟩
  · rcases hmem with hmem | ⟨hk, -⟩
    · rw [← hmsg] at hecho ⊢
      exact hs.outgoing p hmem g y hy hecho
    · rw [← hmsg] at hecho
      exact absurd hecho.2 ((not_known hk).2 g y hy hecho.1)
  · rcases hmem with hmem | ⟨-, a, message, he⟩
    · simp only [step] at hst
      split at hst
      · next hok =>
          have hall := List.all_eq_true.mp hok.2 p hmem
          simpa [hecho.1, hecho.2] using hall
      · cases hst
    · cases he

/-- An echo that is looked up after its answer was attached is known. -/
theorem Guarded.echo_known (hs : Guarded s) {p : Posted} (hp : p ∈ s.posted)
    (hatt : s.attached p = true) : s.map.isEchoOfOurOwn p.chatId p.messageId = true := by
  obtain ⟨x, hx, hchat⟩ := hs.sender p hp
  simp only [State.attached, hx, Option.any_some, Bool.and_eq_true, beq_iff_eq] at hatt
  obtain ⟨hstage, hlink⟩ := hatt
  obtain ⟨link, hlink⟩ := Option.isSome_iff_exists.mp hlink
  obtain ⟨r, hr, -, hmark, hchat', hm⟩ := hs.carries _ _ hstage x link hx hlink
  rw [hchat, Option.some.injEq] at hchat'
  exact Table.holdsOf_iff.mpr ⟨link, r, hr, by simp [← hchat', hm, hmark]⟩

theorem Guarded.unclaimed_step (hs : Guarded s) (h : After s t e)
    (hok : echoAfterAnswer s e = true) (p : Posted) (hp : p ∈ t.posted) : NeverClaimed t p := by
  have hmem : p ∈ s.posted ∨ s.known p.chatId p.messageId = false ∧
      ∃ a message, e = .post a message := by
    rcases h.posted with hsame | ⟨a, x, chat, message, he, -, -, hk, hnew⟩
    · exact .inl (hsame ▸ hp)
    · rw [hnew] at hp
      rcases List.mem_cons.mp hp with rfl | hp
      · exact .inr ⟨hk, a, message, he⟩
      · exact .inl hp
  constructor
  · intro i r' hr' hchat hm
    have hlink := h.link i
    unfold LinkAfter at hlink
    split at hlink
    · next r hr =>
        rcases hlink with ⟨r'', hr'', hc⟩ | ⟨hnone, -⟩
        · obtain rfl := Option.some.inj (hr''.symm.trans hr')
          rcases hmem with hmem | ⟨hk, a, message, rfl⟩
          · cases hc with
            | same | telegram | owner => exact (hs.unclaimed p hmem).1 i r hr hchat hm
            | answered hx hcreated hlink hfree =>
                -- The answer writes onto a row of our own.
                simp only [echoAfterAnswer, answersOwnRow, hx, hcreated, hlink, hr,
                  Option.any_some, Bool.and_eq_true, beq_iff_eq] at hok
                exact hok.1.1.2
          · cases hc <;> exact absurd hm ((not_known hk).1 i r hr hchat)
        · rw [hnone] at hr'
          cases hr'
    · obtain ⟨-, hborn⟩ := hlink r' hr'
      cases hborn with
      | claimed hy hphase =>
          rcases hmem with hmem | ⟨-, a, message, he⟩
          · have hwait := (hs.unclaimed p hmem).2 _ _ hy ⟨hchat, Option.some.inj hm⟩
            rw [hphase] at hwait
            simp [Handling.running] at hwait
          · cases he
      | recorded => rfl
  · intro g y' hy' hecho
    rcases h.handler_from hy' with ⟨y, hy, hmsg, hc⟩ | ⟨hphase, -⟩
    · rw [← hmsg] at hecho
      rcases hmem with hmem | ⟨hk, -⟩
      · have hwait := (hs.unclaimed p hmem).2 g y hy hecho
        generalize y'.phase = phase at hc
        cases hc with
        | same => exact hwait
        | checked hreceived hnot hmirror =>
            -- The look-up comes after the answer, so it has found our own row.
            have hm := hmirror (hs.outgoing p hmem g y hy hecho)
            simp only [echoAfterAnswer, hy, hm, Bool.not_true, Bool.false_or] at hok
            have hatt := List.all_eq_true.mp hok p hmem
            simp only [hecho.1, hecho.2, beq_self_eq_true, Bool.and_self, Bool.not_true,
              Bool.false_or] at hatt
            have hknown := hs.echo_known hmem hatt
            rw [hecho.1, hecho.2, hknown] at hnot
            cases hnot
        | claimed hadmitted =>
            rw [hadmitted] at hwait
            simp [Handling.running] at hwait
        | later hrunning hold _ =>
            rcases hwait with hwait | hwait
            · exact absurd hwait hold.1
            · rw [hrunning] at hwait
              cases hwait
        | ended hend => rcases hend with rfl | rfl <;> exact .inr rfl
      · exact absurd hecho.2 ((not_known hk).2 g y hy hecho.1)
    · exact .inl hphase

theorem Guarded.settled_step (hs : Guarded s) (hlog : QueueLogged s) (h : After s t e) (i : Nat)
    (r' : OutboxItem) (m : Int) (hr' : t.queue.outbox.get? i = some r')
    (hown : State.ownSend r'.direction r'.kind = true) (hm : r'.remoteMessageId = some m) :
    ∃ a y, t.queue.attempts.get? a = some y ∧ y.job = i ∧ y.phase.mayHaveFired = true ∧
      t.stage a = .answered m := by
  have hstage : ∀ a, s.stage a = .answered m → t.stage a = .answered m := by
    intro a ha
    have hchange := h.stage a
    generalize t.stage a = g at hchange
    cases hchange with
    | same => exact ha
    | created _ hc | answered hc | broken hc =>
        rw [ha] at hc
        cases hc
  obtain ⟨r, hr, hsame, hfrom⟩ := h.remote_from hr' hm
  obtain ⟨hb, hd, hk, -⟩ := hsame
  have hold : ∃ a x, s.queue.attempts.get? a = some x ∧ x.job = i ∧
      x.phase.mayHaveFired = true ∧ s.stage a = .answered m := by
    rcases hfrom with hsome | ⟨a, x, backoff, -, hallows, hx, hphase, hjob⟩
    · exact hs.settled i r m hr (by rw [← hd, ← hk]; exact hown) hsome
    · -- The attempt is one of ours, so it returned the id of an answer.
      obtain ⟨row, hrow, hfit⟩ := hlog.1 a x hx (by rw [hphase]; rfl)
      rw [hjob, hr, Option.some.injEq] at hrow
      obtain ⟨-, hfd, hfk⟩ := hfit
      have hxown : State.ownSend x.spec.direction x.spec.kind = true := by
        simp only [State.ownSend] at hown ⊢
        rw [← hfk, ← hfd, ← hrow, ← hd, ← hk]
        exact hown
      simp only [State.allows, State.settles, hx, hxown, Bool.not_true, Bool.false_or,
        Bool.and_eq_true] at hallows
      refine ⟨a, x, hx, hjob, by rw [hphase]; rfl, ?_⟩
      have hanswer := hallows.2
      split at hanswer
      · next message hanswered =>
          simp only [beq_iff_eq, Option.some.injEq] at hanswer
          rw [hanswered, hanswer]
      · simp at hanswer
      · cases hanswer
  obtain ⟨a, x, hx, hjob, hfired, ha⟩ := hold
  obtain ⟨y, hy, -, hkept⟩ := h.attempt_kept hx
  obtain ⟨hyjob, hyfired⟩ := hkept hfired
  exact ⟨a, y, hy, hyjob.trans hjob, hyfired, hstage a ha⟩

theorem Guarded.step (hs : Guarded s) (hrel : ReleasesUnsent s) (hlog : QueueLogged s)
    (hok : echoAfterAnswer s e = true) (hst : Bridge.step s e = some t) : Guarded t :=
  have h := step_after hst
  { staged := hs.staged_step h
    carries := hs.carries_step hrel h hok hst
    sender := hs.sender_step h
    outgoing := hs.outgoing_step h hst
    unclaimed := hs.unclaimed_step h hok
    settled := hs.settled_step hlog h }

end step

theorem guarded_of_reaches {s : State}
    (h : Run.Reaches system (fun s e => echoAfterAnswer s e = true) s) : Guarded s :=
  h.invariant_of
    (fun s hs => (⟨releasesUnsent_of_reaches hs, queueLogged_of_reaches hs⟩ :
      ReleasesUnsent s ∧ QueueLogged s))
    .start fun _ _ _ hknown hinv hok hst => hinv.step hknown.1 hknown.2 hok hst

/-- **The loop guard.**  In every run in which no echo is looked up before the
answer of its send was attached, the message of a send is never claimed as one
from MAX, and a send that is done has its MAX id on its own mapping row. -/
theorem loop_guard {s : State}
    (h : Run.Reaches system (fun s e => echoAfterAnswer s e = true) s) :
    (∀ p ∈ s.posted, NeverClaimed s p) ∧
      ∀ i r m, s.queue.outbox.get? i = some r → State.ownSend r.direction r.kind = true →
        r.state = .done → r.remoteMessageId = some m →
        ∃ a x, s.queue.attempts.get? a = some x ∧ x.job = i ∧
          ∀ link, State.linkOf x.spec.payload = some link →
            ∃ row, s.map.get? link = some row ∧ row.maxMessageId = some m := by
  have hs := guarded_of_reaches h
  refine ⟨hs.unclaimed, fun i r m hr hown _ hm => ?_⟩
  obtain ⟨a, x, hx, hjob, -, hstage⟩ := hs.settled i r m hr hown hm
  refine ⟨a, x, hx, hjob, fun link hlink => ?_⟩
  obtain ⟨row, hrow, -, -, -, hid⟩ := hs.carries a m hstage x link hx hlink
  exact ⟨row, hrow, hid⟩

/-! ## two runs -/

def ownIntake : Intake where
  bridgeName := "bridge"
  maxChatId := 1
  telegramBotId := 5
  telegramChatId := 9
  telegramOwnerMessageId := some 3
  telegramOwnerAccountId := some 9

/-- A text the owner wrote, recorded, submitted and taken up to its creation in MAX. -/
def ownText : List Event :=
  [.serve, .record ownIntake,
    .queue (.submit ⟨"bridge", .tgToMax, .tgToMaxText,
      [("max_chat_id", .int 1), ("text", .str "hello"), ("link_id", .int 1)],
      sendSourceKey 9 3⟩ .kind),
    .queue (.check 1), .queue (.claim 1), .queue (.enter 1), .queue (.sending 1), .post 1 7]

/-- MAX pushes the message back, and the bridge looks it up. -/
def echoBack : List Event := [.arrive ⟨"bridge", 1, 5⟩ ⟨1, 7, true, 0⟩, .check 1 true]

/-- The answer comes before its echo: the echo stops, the mapping has its id. -/
theorem loop_guard_answeredFirst :
    ∃ s, Run.Reaches system (fun s e => echoAfterAnswer s e = true) s ∧
      (s.posted = [⟨1, 7, 1⟩] ∧ (s.inbound.get? 1).map (·.phase) = some .over ∧
        (s.queue.outbox.get? 1).map (fun r => (r.state, r.remoteMessageId)) =
          some (.done, some 7)) ∧
      (∀ p ∈ s.posted, NeverClaimed s p) := by
  obtain ⟨s, hs, hfinal⟩ := Run.Reaches.exists_of_play system echoAfterAnswer
    (startUp ++ ownText ++ [.answer 1, .queue (.settle 1 (.delivered (some 7)) 0)] ++ echoBack)
    (fun s => decide (s.posted = [⟨1, 7, 1⟩]) &&
      decide ((s.inbound.get? 1).map (·.phase) = some .over) &&
      decide ((s.queue.outbox.get? 1).map (fun r => (r.state, r.remoteMessageId)) =
        some (.done, some 7))) rfl
  simp only [Bool.and_eq_true, decide_eq_true_eq] at hfinal
  exact ⟨s, hs, ⟨hfinal.1.1, hfinal.1.2, hfinal.2⟩, (loop_guard hs).1⟩

/-- The echo comes before the answer: it is claimed as a message from MAX, and
the unique index then refuses the id of the answer. -/
theorem not_loop_guard :
    ¬ ∀ s, Run.Reaches system Run.anyStep s → ∀ p ∈ s.posted, NeverClaimed s p := by
  intro hall
  obtain ⟨s, hs, hfinal⟩ := Run.Reaches.exists_of_play system (fun _ _ => true)
    (startUp ++ ownText ++ echoBack ++ [.claim 1 9 none, .answer 1])
    (fun s => decide (s.posted = [⟨1, 7, 1⟩]) && decide (s.stage 1 = .broken) &&
      (s.map.get? 2).any fun r =>
        r.maxChatId == 1 && r.maxMessageId == some 7 && r.sourceMarker == .fromMax) rfl
  simp only [Bool.and_eq_true, decide_eq_true_eq, Option.any_eq_true, beq_iff_eq] at hfinal
  obtain ⟨⟨hposted, -⟩, r, hr, ⟨hchat, hm⟩, hmark⟩ := hfinal
  have hnever := hall s (hs.mono fun _ _ _ => trivial) ⟨1, 7, 1⟩ (by rw [hposted]; simp)
  rw [hnever.1 2 r hr hchat hm] at hmark
  cases hmark

end Telemax.Bridge
