import Telemax.Bridge.System
import Telemax.Queue.Invariants

/-!
# Telemax.Bridge.Steps

What one event can do to each part of the state, said once:

* `QueueMove` — the queue moves by a step of its own, or has its outbox written;
* `LinkChange`, `LinkBorn` — how a mapping row changes, and how one appears;
* `HandlerChange` — how a call of `on_max_message` goes on;
* `StageChange` — how a send into MAX goes on.

The invariants of the system are case analyses of these.
-/

namespace Telemax.Bridge

open MessageMap

namespace State

@[simp] theorem setPhase_queue (s : State) (h : Nat) (p : Handling) :
    (s.setPhase h p).queue = s.queue := rfl
@[simp] theorem setPhase_map (s : State) (h : Nat) (p : Handling) :
    (s.setPhase h p).map = s.map := rfl
@[simp] theorem setPhase_albums (s : State) (h : Nat) (p : Handling) :
    (s.setPhase h p).albums = s.albums := rfl
@[simp] theorem setPhase_startup (s : State) (h : Nat) (p : Handling) :
    (s.setPhase h p).startup = s.startup := rfl
@[simp] theorem setPhase_stage (s : State) (h : Nat) (p : Handling) :
    (s.setPhase h p).stage = s.stage := rfl
@[simp] theorem setPhase_posted (s : State) (h : Nat) (p : Handling) :
    (s.setPhase h p).posted = s.posted := rfl
@[simp] theorem setPhase_inbound (s : State) (h : Nat) (p : Handling) :
    (s.setPhase h p).inbound = s.inbound.modify h fun y => { y with phase := p } := rfl
@[simp] theorem setOutbox_outbox (s : State) (o : Outbox) :
    (s.setOutbox o).queue.outbox = o := rfl
@[simp] theorem setOutbox_map (s : State) (o : Outbox) : (s.setOutbox o).map = s.map := rfl
@[simp] theorem setOutbox_albums (s : State) (o : Outbox) :
    (s.setOutbox o).albums = s.albums := rfl
@[simp] theorem setOutbox_startup (s : State) (o : Outbox) :
    (s.setOutbox o).startup = s.startup := rfl
@[simp] theorem setOutbox_stage (s : State) (o : Outbox) : (s.setOutbox o).stage = s.stage := rfl
@[simp] theorem setOutbox_posted (s : State) (o : Outbox) :
    (s.setOutbox o).posted = s.posted := rfl
@[simp] theorem setOutbox_inbound (s : State) (o : Outbox) :
    (s.setOutbox o).inbound = s.inbound := rfl

/-- A step of a call is a step of one that is there, while the service is up. -/
theorem ofHandler_eq_some {s t : State} {h : Nat} {f : Inbound → Option State}
    (hf : s.ofHandler h f = some t) :
    s.startup = .serving ∧ ∃ y, s.inbound.get? h = some y ∧ f y = some t := by
  unfold ofHandler at hf
  split at hf
  · next hs => exact ⟨hs, Option.bind_eq_some_iff.mp hf⟩
  · cases hf

end State

/-! ## the calls of `on_max_message` -/

/-- How a call goes on: into which phase, by which event, with which facts. -/
inductive HandlerChange (s : State) (h : Nat) (y : Inbound) : Event → Handling → Prop
  | same {e : Event} : HandlerChange s h y e y.phase
  | checked {mirror : Bool} (hp : y.phase = .received)
      (hecho : s.map.isEchoOfOurOwn y.message.chatId y.message.messageId = false)
      (hmirror : y.message.isOutgoing = true → mirror = true) :
      HandlerChange s h y (.check h mirror) .admitted
  | claimed {telegramChat : Int} {fingerprint : Option String} (hp : y.phase = .admitted) :
      HandlerChange s h y (.claim h telegramChat fingerprint) (.claimed s.map.next 0)
  | later {e : Event} {p : Handling} (hrunning : y.phase.running = true)
      (hold : y.phase ≠ .received ∧ y.phase ≠ .admitted)
      (hnew : p ≠ .received ∧ p ≠ .admitted) : HandlerChange s h y e p
  | ended {e : Event} {p : Handling} (hp : p = .over ∨ p = .dead) : HandlerChange s h y e p

/-- A call after an event: as it was, or in another phase, or new. -/
def HandlerAfter (s t : State) (e : Event) (h : Nat) : Prop :=
  ∀ y', t.inbound.get? h = some y' →
    (∃ y, s.inbound.get? h = some y ∧ y' = { y with phase := y'.phase } ∧
      HandlerChange s h y e y'.phase) ∨
    s.inbound.get? h = none ∧ y'.phase = .received ∧ e = .arrive y'.target y'.message

theorem HandlerAfter.of_same {s t : State} {e : Event} {h : Nat} (ht : t.inbound = s.inbound) :
    HandlerAfter s t e h := by
  intro y' hy'
  rw [ht] at hy'
  exact .inl ⟨y', hy', rfl, .same⟩

/-- One call goes into another phase. -/
theorem HandlerAfter.of_phase {s t : State} {e : Event} {g : Nat} {y : Inbound} {p : Handling}
    (hy : s.inbound.get? g = some y)
    (ht : t.inbound = s.inbound.modify g fun y => { y with phase := p })
    (hc : HandlerChange s g y e p) (h : Nat) : HandlerAfter s t e h := by
  intro y' hy'
  rw [ht] at hy'
  by_cases hg : h = g
  · subst hg
    rw [Table.get?_modify_self, hy, Option.map_some, Option.some.injEq] at hy'
    subst hy'
    exact .inl ⟨y, hy, rfl, hc⟩
  · rw [Table.get?_modify_ne _ _ hg] at hy'
    exact .inl ⟨y', hy', rfl, .same⟩

/-! ## the outbox -/

/-- What a write from outside an attempt leaves of the outbox: every row, as the
row of its job, and no id of a remote message that was not there. -/
def OutboxWrite (o o' : Outbox) : Prop :=
  (∀ i r, o.get? i = some r → ∃ r', o'.get? i = some r' ∧ SameJob r r' ∧
    r'.remoteMessageId = r.remoteMessageId) ∧
  ∀ i r', o.get? i = none → o'.get? i = some r' → r'.remoteMessageId = none

theorem OutboxWrite.refl (o : Outbox) : OutboxWrite o o :=
  ⟨fun _ r h => ⟨r, h, ⟨rfl, rfl, rfl, rfl⟩, rfl⟩, fun _ _ h h' => by rw [h] at h'; cases h'⟩

theorem OutboxWrite.modify {o : Outbox} {j : Nat} {f : OutboxItem → OutboxItem}
    (hf : ∀ r, SameJob r (f r) ∧ (f r).remoteMessageId = r.remoteMessageId) :
    OutboxWrite o (o.modify j f) := by
  constructor
  · intro i r hr
    by_cases hij : i = j
    · subst hij
      exact ⟨f r, by rw [Table.get?_modify_self, hr]; rfl, hf r⟩
    · exact ⟨r, by rw [Table.get?_modify_ne _ _ hij, hr], ⟨rfl, rfl, rfl, rfl⟩, rfl⟩
  · intro i r' hnone hr'
    rw [Table.get?_modify] at hr'
    split at hr' <;> simp_all

theorem OutboxWrite.claimForAttempt (o : Outbox) (spec : JobSpec) (stamp : Nat) :
    OutboxWrite o (o.claimForAttempt spec stamp).1 := by
  unfold Outbox.claimForAttempt
  split
  · split
    · exact .modify fun r => ⟨⟨rfl, rfl, rfl, rfl⟩, rfl⟩
    · exact .refl o
  · constructor
    · intro i r hr
      have hne : i ≠ o.next := Nat.ne_of_lt (Table.lt_next hr)
      exact ⟨r, by rw [Table.get?_insert, if_neg hne, hr], ⟨rfl, rfl, rfl, rfl⟩, rfl⟩
    · intro i r' hnone hr'
      rw [Table.get?_insert, hnone] at hr'
      split at hr'
      · cases hr'
        rfl
      · cases hr'

/-- How the queue moves under an event. -/
inductive QueueMove (s t : State) : Event → Prop
  | same {e : Event} (h : t.queue = s.queue) : QueueMove s t e
  | queue {qe : Queue.Event} (hok : s.allows qe = true)
      (h : Queue.step s.queue qe = some t.queue) : QueueMove s t (.queue qe)
  | crash (h : Queue.step s.queue .crash = some t.queue) : QueueMove s t .crash
  | deliver {g : Nat} {kind : JobKind} {content : Payload} {spec : JobSpec}
      (hs : s.startup = .serving)
      (h : Queue.step s.queue (.submit spec .direction) = some t.queue) :
      QueueMove s t (.deliver g kind content)
  | write {e : Event} {o : Outbox} (hs : s.startup = .serving)
      (h : t.queue = { s.queue with outbox := o }) (hw : OutboxWrite s.queue.outbox o) :
      QueueMove s t e

/-! ## the mapping -/

/-- How a mapping row appears. -/
inductive LinkBorn (s : State) : Event → MessageLink → Prop
  | claimed {h : Nat} {y : Inbound} {telegramChat : Int} {fingerprint : Option String}
      (hy : s.inbound.get? h = some y) (hp : y.phase = .admitted) :
      LinkBorn s (.claim h telegramChat fingerprint)
        (newClaim y.target.name y.message.chatId y.message.messageId y.target.botId telegramChat
          fingerprint s.queue.now)
  | recorded {intake : Intake} : LinkBorn s (.record intake) (newRecord intake s.queue.now)

/-- How a mapping row changes. -/
inductive LinkChange (s : State) (i : Nat) (r : MessageLink) : Event → MessageLink → Prop
  | same {e : Event} : LinkChange s i r e r
  | telegram {message : Int} :
      LinkChange s i r (.attachTelegram i message) { r with telegramMessageId := some message }
  | owner {e : Event} {account message : Int} :
      LinkChange s i r e
        { r with telegramOwnerMessageId := some message, telegramOwnerAccountId := some account }
  | answered {a : Nat} {x : Attempt} {message : Int} (hx : s.queue.attempts.get? a = some x)
      (hstage : s.stage a = .created message) (hlink : State.linkOf x.spec.payload = some i)
      (hfree : r.maxMessageId = none ∨ r.maxMessageId = some message) :
      LinkChange s i r (.answer a) { r with maxMessageId := some message }

/-- A mapping row after an event: kept, released, or born. -/
def LinkAfter (s t : State) (e : Event) (i : Nat) : Prop :=
  match s.map.get? i with
  | some r =>
      (∃ r', t.map.get? i = some r' ∧ LinkChange s i r e r') ∨
        t.map.get? i = none ∧ e = .forget ∧ ∃ todo, s.startup = .forgetting i todo
  | none => ∀ r', t.map.get? i = some r' → s.startup = .serving ∧ LinkBorn s e r'

theorem LinkAfter.of_same {s t : State} {e : Event} {i : Nat} (ht : t.map = s.map) :
    LinkAfter s t e i := by
  unfold LinkAfter
  rw [ht]
  split
  · next r hr => exact .inl ⟨r, hr, .same⟩
  · next hr =>
      intro r' h
      simp [hr] at h

theorem LinkAfter.of_insert {s t : State} {e : Event} {i : Nat} {r : MessageLink}
    (hs : s.startup = .serving) (ht : t.map = s.map.insert r) (hborn : LinkBorn s e r) :
    LinkAfter s t e i := by
  unfold LinkAfter
  rw [ht]
  split
  · next r' hr' =>
      have hne : i ≠ s.map.next := Nat.ne_of_lt (Table.lt_next hr')
      exact .inl ⟨r', by rw [Table.get?_insert, if_neg hne, hr'], .same⟩
  · next hnone =>
      intro r' h
      rw [Table.get?_insert, hnone] at h
      split at h
      · cases h
        exact ⟨hs, hborn⟩
      · cases h

theorem LinkAfter.of_update {s t : State} {e : Event} {i : Nat} (p : Nat → MessageLink → Bool)
    (f : MessageLink → MessageLink) (hc : ∀ r, p i r = true → LinkChange s i r e (f r))
    (ht : ∀ j, t.map.get? j = (s.map.get? j).map fun r => if p j r then f r else r) :
    LinkAfter s t e i := by
  unfold LinkAfter
  split
  · next r hr =>
      cases hp : p i r with
      | true => exact .inl ⟨f r, by rw [ht, hr]; simp [hp], hc r hp⟩
      | false => exact .inl ⟨r, by rw [ht, hr]; simp [hp], .same⟩
  · next hnone =>
      intro r' h
      simp [ht, hnone] at h

/-! ## sends into MAX -/

/-- How a send goes on. -/
inductive StageChange (s : State) (a : Nat) : Event → Stage → Prop
  | same {e : Event} : StageChange s a e (s.stage a)
  | created {x : Attempt} {message : Int} (hx : s.queue.attempts.get? a = some x)
      (hstage : s.stage a = .calling) :
      StageChange s a (.post a message) (.created message)
  | answered {message : Int} (hstage : s.stage a = .created message) :
      StageChange s a (.answer a) (.answered message)
  | broken {message : Int} (hstage : s.stage a = .created message) :
      StageChange s a (.answer a) .broken

theorem StageChange.of_update {s t : State} {e : Event} {b : Nat} {g : Stage}
    (ht : t.stage = Function.update s.stage b g) (hc : StageChange s b e g) (a : Nat) :
    StageChange s a e (t.stage a) := by
  rw [ht]
  by_cases ha : a = b
  · subst ha
    rw [Function.update_self]
    exact hc
  · rw [Function.update_of_ne ha]
    exact .same

theorem StageChange.of_same {s t : State} {e : Event} (ht : t.stage = s.stage) (a : Nat) :
    StageChange s a e (t.stage a) := by
  rw [ht]
  exact .same

/-! ## one event -/

/-- The events of the start of the service, and its end. -/
def Event.ofStart : Event → Bool
  | .crash | .readPreviousStart | .noteStart | .releaseSelect | .clearLink | .forget | .serve => true
  | _ => false

theorem step_ofStart {s : State} {e : Event} (he : e.ofStart = true) (hc : e ≠ .crash) :
    step s e = stepStartup s e := by
  cases e with
  | readPreviousStart | noteStart | releaseSelect | clearLink | forget | serve => rfl
  | crash => exact absurd rfl hc
  | _ => cases he

/-- What an event that is none of those leaves alone: the start, every alias,
and until the service is up the whole mapping. -/
structure StartKept (s t : State) : Prop where
  startup : t.startup = s.startup
  processStartedAt : t.processStartedAt = s.processStartedAt
  albums : ∀ i p, s.albums.get? i = some p → t.albums.get? i = some p
  idle : s.startup ≠ .serving → t.map = s.map ∧ t.albums = s.albums

/-- A message is created by a post only, and under an id that was not known. -/
def PostedAfter (s t : State) (e : Event) : Prop :=
  t.posted = s.posted ∨
    ∃ a x chat message, e = .post a message ∧ s.queue.attempts.get? a = some x ∧
      State.chatOf x.spec.payload = some chat ∧ s.known chat message = false ∧
      t.posted = ⟨chat, message, a⟩ :: s.posted

/-- What one event does. -/
structure After (s t : State) (e : Event) : Prop where
  queue : QueueMove s t e
  link : ∀ i, LinkAfter s t e i
  handler : ∀ h, HandlerAfter s t e h
  stage : ∀ a, StageChange s a e (t.stage a)
  posted : PostedAfter s t e
  start : StartKept s t ∨ e.ofStart = true

/-- Only the queue moves. -/
theorem After.of_queue {s : State} {e : Event} {q : Queue.State}
    (h : QueueMove s { s with queue := q } e) : After s { s with queue := q } e where
  queue := h
  link _ := .of_same rfl
  handler _ := .of_same rfl
  stage _ := .of_same rfl _
  posted := .inl rfl
  start := .inl ⟨rfl, rfl, fun _ _ h => h, fun _ => ⟨rfl, rfl⟩⟩

/-- Only one call goes on. -/
theorem After.of_phase {s : State} {e : Event} {g : Nat} {y : Inbound} {p : Handling}
    (hy : s.inbound.get? g = some y) (hc : HandlerChange s g y e p) :
    After s (s.setPhase g p) e where
  queue := .same rfl
  link _ := .of_same rfl
  handler h := .of_phase hy rfl hc h
  stage _ := .of_same rfl _
  posted := .inl rfl
  start := .inl ⟨rfl, rfl, fun _ _ h => h, fun _ => ⟨rfl, rfl⟩⟩

/-- One call goes on, and the outbox is written. -/
theorem After.of_write {s : State} {e : Event} {g : Nat} {y : Inbound} {p : Handling} {o : Outbox}
    (hs : s.startup = .serving) (hy : s.inbound.get? g = some y)
    (hw : OutboxWrite s.queue.outbox o) (hc : HandlerChange s g y e p) :
    After s ((s.setOutbox o).setPhase g p) e where
  queue := .write hs rfl hw
  link _ := .of_same rfl
  handler h := .of_phase hy rfl hc h
  stage _ := .of_same rfl _
  posted := .inl rfl
  start := .inl ⟨rfl, rfl, fun _ _ h => h, fun _ => ⟨rfl, rfl⟩⟩

/-- Only the mapping changes. -/
theorem After.of_map {s : State} {e : Event} {map : MessageMap} (hs : s.startup = .serving)
    (h : ∀ i, LinkAfter s { s with map } e i) : After s { s with map } e where
  queue := .same rfl
  link := h
  handler _ := .of_same rfl
  stage _ := .of_same rfl _
  posted := .inl rfl
  start := .inl ⟨rfl, rfl, fun _ _ h => h, absurd hs⟩

theorem addPart_keep {g : MediaGroups} {p q : MediaGroupPart} {i : Nat}
    (h : g.get? i = some q) : (g.addPart p).get? i = some q := by
  unfold MediaGroups.addPart
  split
  · exact h
  · rw [Table.get?_insert, if_neg (Nat.ne_of_lt (Table.lt_next h)), h]

theorem claimFromMax_eq_some {m m' : MessageMap} {r : MessageLink} {id : Nat}
    (h : m.claimFromMax r = (m', some id)) : m' = m.insert r ∧ id = m.next := by
  unfold claimFromMax at h
  split at h
  · next m'' hins =>
      cases h
      exact ⟨tryInsert_eq_some hins, rfl⟩
  · cases h

/-! ### the calls -/

theorem after_check {s t : State} {h : Nat} {y : Inbound} {mirror : Bool}
    (hy : s.inbound.get? h = some y) (hst : s.check h y mirror = some t) :
    After s t (.check h mirror) := by
  unfold State.check at hst
  split at hst
  · next hp =>
      obtain rfl := Option.some.inj hst
      refine .of_phase hy ?_
      split
      · exact .ended (.inl rfl)
      · next hecho =>
          split
          · exact .ended (.inl rfl)
          · next hmirror =>
              refine .checked hp (by simpa using hecho) fun ho => ?_
              simpa [ho] using hmirror
  · cases hst

theorem after_claim {s t : State} {h : Nat} {y : Inbound} {telegramChat : Int}
    {fingerprint : Option String} (hs : s.startup = .serving) (hy : s.inbound.get? h = some y)
    (hst : s.claim h y telegramChat fingerprint = some t) :
    After s t (.claim h telegramChat fingerprint) := by
  unfold State.claim at hst
  split at hst
  · next hp =>
      split at hst
      · next map link hclaim =>
          obtain rfl := Option.some.inj hst
          obtain ⟨hmap, rfl⟩ := claimFromMax_eq_some hclaim
          exact
            { queue := .same rfl
              link := fun i => .of_insert hs hmap (.claimed hy hp)
              handler := fun g => .of_phase hy rfl (.claimed hp) g
              stage := fun a => .of_same rfl a
              posted := .inl rfl
              start := .inl ⟨rfl, rfl, fun _ _ h => h, absurd hs⟩ }
      · obtain rfl := Option.some.inj hst
        exact .of_phase hy (.ended (.inl rfl))
  · cases hst

theorem after_expectPart {s t : State} {h : Nat} {y : Inbound} (hs : s.startup = .serving)
    (hy : s.inbound.get? h = some y) (hst : s.expectPart h y = some t) :
    After s t (.expectPart h) := by
  unfold State.expectPart at hst
  split at hst
  · next link aliases hp =>
      split at hst
      · obtain rfl := Option.some.inj hst
        exact
          { queue := .same rfl
            link := fun i => .of_same rfl
            handler := fun g => .of_phase hy rfl (.later (by simp [hp, Handling.running]) (by simp [hp]) (by simp)) g
            stage := fun a => .of_same rfl a
            posted := .inl rfl
            start := .inl ⟨rfl, rfl, fun _ _ h => addPart_keep h, absurd hs⟩ }
      · cases hst
  · cases hst

theorem after_deliver {s t : State} {h : Nat} {y : Inbound} {kind : JobKind} {content : Payload}
    (hs : s.startup = .serving) (hy : s.inbound.get? h = some y)
    (hst : s.deliver h y kind content = some t) : After s t (.deliver h kind content) := by
  unfold State.deliver at hst
  split at hst
  · next link aliases hp =>
      split at hst
      · obtain ⟨q, hq, rfl⟩ := Option.map_eq_some_iff.mp hst
        exact
          { queue := .deliver hs hq
            link := fun i => .of_same rfl
            handler := fun g => .of_phase hy rfl (.ended (.inl rfl)) g
            stage := fun a => .of_same rfl a
            posted := .inl rfl
            start := .inl ⟨rfl, rfl, fun _ _ h => h, fun _ => ⟨rfl, rfl⟩⟩ }
      · cases hst
  · cases hst

theorem after_account {s t : State} {h : Nat} {y : Inbound} {kind : JobKind} {noop : Bool}
    {reason : String} (hs : s.startup = .serving) (hy : s.inbound.get? h = some y)
    (hst : s.account h y kind noop reason = some t) : After s t (.account h kind noop reason) := by
  unfold State.account at hst
  split at hst
  · next link aliases hp =>
      split at hst
      · obtain rfl := Option.some.inj hst
        exact .of_write hs hy (.claimForAttempt ..) (.later (by simp [hp, Handling.running]) (by simp [hp]) (by simp))
      · cases hst
  · cases hst

theorem after_accountFailed {s t : State} {h : Nat} {y : Inbound} (hs : s.startup = .serving)
    (hy : s.inbound.get? h = some y) (hst : s.accountFailed h y = some t) :
    After s t (.accountFailed h) := by
  unfold State.accountFailed at hst
  split at hst
  · next job noop reason hp =>
      obtain rfl := Option.some.inj hst
      refine .of_write hs hy (.modify fun r => ⟨⟨rfl, rfl, rfl, rfl⟩, rfl⟩) ?_
      exact .later (by simp [hp, Handling.running]) (by simp [hp]) (by split <;> simp)
  · cases hst

theorem after_archiveRead {s t : State} {h : Nat} {y : Inbound}
    (hy : s.inbound.get? h = some y) (hst : s.archiveRead h y = some t) :
    After s t (.archiveRead h) := by
  unfold State.archiveRead at hst
  split at hst
  · next job reason hp =>
      obtain rfl := Option.some.inj hst
      refine .of_phase hy (.later (by simp [hp, Handling.running]) (by simp [hp]) ?_)
      split
      · split <;> simp
      · simp
  · cases hst

theorem after_archiveWrite {s t : State} {h : Nat} {y : Inbound} (hs : s.startup = .serving)
    (hy : s.inbound.get? h = some y) (hst : s.archiveWrite h y = some t) :
    After s t (.archiveWrite h) := by
  unfold State.archiveWrite at hst
  split at hst
  · obtain rfl := Option.some.inj hst
    exact .of_write hs hy (.modify fun r => ⟨⟨rfl, rfl, rfl, rfl⟩, rfl⟩) (.ended (.inl rfl))
  · cases hst

/-! ### sends into MAX -/

theorem after_post {s t : State} {a : Nat} {message : Int} (hst : s.post a message = some t) :
    After s t (.post a message) := by
  unfold State.post at hst
  split at hst
  · next x hx =>
      split at hst
      · next chat hchat =>
          split at hst
          · next hok =>
              obtain ⟨-, -, -, -, hstage, hknown⟩ := hok
              obtain rfl := Option.some.inj hst
              exact
                { queue := .same rfl
                  link := fun i => .of_same rfl
                  handler := fun g => .of_same rfl
                  stage := .of_update rfl (.created hx hstage)
                  posted := .inr ⟨a, x, chat, message, rfl, hx, hchat, hknown, rfl⟩
                  start := .inl ⟨rfl, rfl, fun _ _ h => h, fun _ => ⟨rfl, rfl⟩⟩ }
          · cases hst
      · cases hst
  · cases hst

/-- `attach_max_message` changes the one row, and that only from having no id. -/
theorem linkAfter_answer {s t : State} {a link : Nat} {x : Attempt} {message : Int}
    (hx : s.queue.attempts.get? a = some x) (hstage : s.stage a = .created message)
    (hlink : State.linkOf x.spec.payload = some link)
    (hmap : s.map.attachMaxMessage link message = some t.map) (i : Nat) :
    LinkAfter s t (.answer a) i := by
  refine .of_update (fun j r => j == link &&
    (r.maxMessageId.isNone || r.maxMessageId == some message)) _ ?_ (tryUpdate_get? hmap)
  intro r hp
  simp only [Bool.and_eq_true, beq_iff_eq, Bool.or_eq_true, Option.isNone_iff_eq_none] at hp
  obtain ⟨rfl, hfree⟩ := hp
  exact .answered hx hstage hlink hfree

theorem after_answer {s t : State} {a : Nat} (hst : s.answer a = some t) :
    After s t (.answer a) := by
  unfold State.answer at hst
  split at hst
  · next x message hx hstage =>
      split at hst
      · next hok =>
        split at hst
        · next link hlink =>
            split at hst
            · next map hmap =>
                obtain rfl := Option.some.inj hst
                exact
                  { queue := .same rfl
                    link := linkAfter_answer hx hstage hlink hmap
                    handler := fun g => .of_same rfl
                    stage := .of_update rfl (.answered hstage)
                    posted := .inl rfl
                    start := .inl ⟨rfl, rfl, fun _ _ h => h, absurd hok.1⟩ }
            · obtain rfl := Option.some.inj hst
              exact
                { queue := .same rfl
                  link := fun i => .of_same rfl
                  handler := fun g => .of_same rfl
                  stage := .of_update rfl (.broken hstage)
                  posted := .inl rfl
                  start := .inl ⟨rfl, rfl, fun _ _ h => h, fun _ => ⟨rfl, rfl⟩⟩ }
        · obtain rfl := Option.some.inj hst
          exact
            { queue := .same rfl
              link := fun i => .of_same rfl
              handler := fun g => .of_same rfl
              stage := .of_update rfl (.answered hstage)
              posted := .inl rfl
              start := .inl ⟨rfl, rfl, fun _ _ h => h, fun _ => ⟨rfl, rfl⟩⟩ }
      · cases hst
  · cases hst

/-! ### the start -/

/-- What `forget` does to the mapping: one row goes. -/
theorem linkAfter_forget {s t : State} {link : Nat} {todo : List Nat}
    (hs : s.startup = .forgetting link todo) (ht : t.map = s.map.forget link) (i : Nat) :
    LinkAfter s t .forget i := by
  unfold LinkAfter
  have hget : t.map.get? i = (s.map.get? i).filter fun _ => !(i == link) := by
    rw [ht]
    exact Table.get?_delete ..
  split
  · next r hr =>
      by_cases hi : i = link
      · subst hi
        exact .inr ⟨by simp [hget, hr], rfl, todo, hs⟩
      · exact .inl ⟨r, by simp [hget, hr, hi], .same⟩
  · next hnone =>
      intro r' h
      simp [hget, hnone] at h

theorem after_startup {s t : State} {e : Event} (he : e.ofStart = true) (hc : e ≠ .crash)
    (hst : stepStartup s e = some t) : After s t e := by
  have hrest : t.queue = s.queue ∧ t.inbound = s.inbound ∧ t.stage = s.stage ∧
      t.posted = s.posted ∧ ∀ i, LinkAfter s t e i := by
    cases e with
    | readPreviousStart =>
        simp only [stepStartup] at hst
        split at hst
        · obtain rfl := Option.some.inj hst
          exact ⟨rfl, rfl, rfl, rfl, fun i => .of_same rfl⟩
        · cases hst
    | noteStart =>
        simp only [stepStartup] at hst
        split at hst
        · obtain rfl := Option.some.inj hst
          exact ⟨rfl, rfl, rfl, rfl, fun i => .of_same rfl⟩
        · cases hst
    | releaseSelect =>
        simp only [stepStartup] at hst
        split at hst
        · obtain rfl := Option.some.inj hst
          exact ⟨rfl, rfl, rfl, rfl, fun i => .of_same rfl⟩
        · obtain rfl := Option.some.inj hst
          exact ⟨rfl, rfl, rfl, rfl, fun i => .of_same rfl⟩
        · cases hst
    | clearLink =>
        simp only [stepStartup] at hst
        split at hst
        · obtain rfl := Option.some.inj hst
          exact ⟨rfl, rfl, rfl, rfl, fun i => .of_same rfl⟩
        · cases hst
    | forget =>
        simp only [stepStartup] at hst
        split at hst
        · next link todo hs =>
            obtain rfl := Option.some.inj hst
            exact ⟨rfl, rfl, rfl, rfl, linkAfter_forget hs rfl⟩
        · cases hst
    | serve =>
        simp only [stepStartup] at hst
        split at hst
        · obtain rfl := Option.some.inj hst
          exact ⟨rfl, rfl, rfl, rfl, fun i => .of_same rfl⟩
        · cases hst
    | crash => exact absurd rfl hc
    | _ => cases he
  obtain ⟨hq, hi, hstage, hposted, hlink⟩ := hrest
  exact
    { queue := .same hq
      link := hlink
      handler := fun h => .of_same hi
      stage := .of_same hstage
      posted := .inl hposted
      start := .inr he }

theorem after_crash (s : State) : After s s.crash .crash where
  queue := .crash rfl
  link _ := .of_same rfl
  handler h := by
    intro y' hy'
    simp only [State.crash, Table.get?_update, Option.map_eq_some_iff] at hy'
    obtain ⟨y, hy, rfl⟩ := hy'
    split
    · exact .inl ⟨y, hy, rfl, .ended (.inr rfl)⟩
    · exact .inl ⟨y, hy, rfl, .same⟩
  stage _ := .of_same rfl _
  posted := .inl rfl
  start := .inr rfl

/-- **What one event does**, each part of the state at a time. -/
theorem step_after {s t : State} {e : Event} (h : step s e = some t) : After s t e := by
  cases e with
  | queue qe =>
      simp only [step] at h
      split at h
      · next hok =>
          obtain ⟨q, hq, rfl⟩ := Option.map_eq_some_iff.mp h
          exact .of_queue (.queue hok hq)
      · cases h
  | crash =>
      obtain rfl := Option.some.inj h
      exact after_crash s
  | arrive target message =>
      simp only [step] at h
      split at h
      · obtain rfl := Option.some.inj h
        exact
          { queue := .same rfl
            link := fun i => .of_same rfl
            handler := fun g y' hy' => by
              rw [Table.get?_insert] at hy'
              split at hy'
              · next hg =>
                  cases hy'
                  exact .inr ⟨by rw [hg, Table.get?_next], rfl, rfl⟩
              · exact .inl ⟨y', hy', rfl, .same⟩
            stage := fun a => .of_same rfl a
            posted := .inl rfl
            start := .inl ⟨rfl, rfl, fun _ _ h => h, fun _ => ⟨rfl, rfl⟩⟩ }
      · cases h
  | check g mirror =>
      obtain ⟨-, y, hy, hst⟩ := State.ofHandler_eq_some h
      exact after_check hy hst
  | claim g telegramChat fingerprint =>
      obtain ⟨hs, y, hy, hst⟩ := State.ofHandler_eq_some h
      exact after_claim hs hy hst
  | expectPart g =>
      obtain ⟨hs, y, hy, hst⟩ := State.ofHandler_eq_some h
      exact after_expectPart hs hy hst
  | deliver g kind content =>
      obtain ⟨hs, y, hy, hst⟩ := State.ofHandler_eq_some h
      exact after_deliver hs hy hst
  | account g kind noop reason =>
      obtain ⟨hs, y, hy, hst⟩ := State.ofHandler_eq_some h
      exact after_account hs hy hst
  | accountFailed g =>
      obtain ⟨hs, y, hy, hst⟩ := State.ofHandler_eq_some h
      exact after_accountFailed hs hy hst
  | archiveRead g =>
      obtain ⟨-, y, hy, hst⟩ := State.ofHandler_eq_some h
      exact after_archiveRead hy hst
  | archiveWrite g =>
      obtain ⟨hs, y, hy, hst⟩ := State.ofHandler_eq_some h
      exact after_archiveWrite hs hy hst
  | die g =>
      obtain ⟨-, y, hy, hst⟩ := State.ofHandler_eq_some h
      split at hst
      · obtain rfl := Option.some.inj hst
        exact .of_phase hy (.ended (.inr rfl))
      · cases hst
  | attachTelegram link message =>
      simp only [step] at h
      split at h
      · next hs =>
        obtain ⟨map, hmap, rfl⟩ := Option.map_eq_some_iff.mp h
        refine .of_map hs fun i => .of_update _ _ (fun r hp => ?_) (tryUpdate_get? hmap)
        simp only [Bool.and_eq_true, beq_iff_eq] at hp
        obtain ⟨rfl, -⟩ := hp
        exact .telegram
      · cases h
  | attachOwner link account message =>
      simp only [step] at h
      split at h
      · next hs =>
        obtain rfl := Option.some.inj h
        exact .of_map hs fun i => .of_update (fun j _ => j == link)
          (fun r => { r with telegramOwnerMessageId := some message,
                             telegramOwnerAccountId := some account })
          (fun r _ => .owner) (Table.get?_update _ _ _)
      · cases h
  | bindOwner link account message =>
      simp only [step] at h
      split at h
      · next hs =>
        obtain rfl := Option.some.inj h
        exact .of_map hs fun i => .of_update _
          (fun r => { r with telegramOwnerMessageId := some message,
                             telegramOwnerAccountId := some account })
          (fun r _ => .owner) (Table.get?_update _ _ _)
      · cases h
  | record intake =>
      simp only [step] at h
      split at h
      · next hs =>
          obtain ⟨map, hmap, rfl⟩ := Option.map_eq_some_iff.mp h
          exact .of_map hs fun i => .of_insert hs (tryInsert_eq_some hmap) .recorded
      · cases h
  | post a message => exact after_post h
  | answer a => exact after_answer h
  | readPreviousStart | noteStart | releaseSelect | clearLink | forget | serve =>
      exact after_startup rfl (by simp) h

end Telemax.Bridge
