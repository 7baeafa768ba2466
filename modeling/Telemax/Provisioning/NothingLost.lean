import Mathlib.Data.List.Forall2
import Telemax.Provisioning.PendingKept

/-!
# Telemax.Provisioning.NothingLost

A careful run of any number of calls loses no message of the pending inbox and
hands none out twice: what an activation takes is sent to the contact's bridge,
and what a sweep takes is counted.
-/

namespace Telemax.Provisioning.Pending

open Script

/-- What a call has taken is its contact's, and it knows the bridge as it was written down. -/
structure Task.Honest (t : Task) (records : List (String × Int)) : Prop where
  bot : ∀ p, t.book.bot = some p → p ∈ records
  mine : ∀ r ∈ t.book.owed, t.kind.activates = true ∧ t.kind.chat = some r.maxChatId
  taken : t.kind.activates = true → ∀ r ∈ t.now.taken, t.kind.chat = some r.maxChatId
  ready : ∀ x b, t.ready = some (x, b) → b.bot = t.book.bot ∧ b.gone = t.book.gone ++ b.taken

theorem Task.Honest.mono {t : Task} {records records' : List (String × Int)}
    (h : t.Honest records) (hsub : records ⊆ records') : t.Honest records' :=
  ⟨fun p hp => hsub (h.bot p hp), h.mine, h.taken, h.ready⟩

namespace State

variable {cfg : Config} {s : State} {n : Nat} {t : Task}

/-- What one send shows, and to whom. -/
abbrev Shows (records : List (String × Int)) (send : String × String) (r : Row) : Prop :=
  (send.1, r.maxChatId) ∈ records ∧ send.2 = r.payload.shown

theorem Shows.mono {records records' : List (String × Int)} {sent : List (String × String)}
    {offered : List Row} (h : List.Forall₂ (Shows records) sent offered)
    (hsub : records ⊆ records') : List.Forall₂ (Shows records') sent offered :=
  h.imp fun _ _ hall => ⟨hsub hall.1, hall.2⟩

/-- What was offered was sent, and every call knows what it has taken. -/
structure Replays (s : State) : Prop where
  told : List.Forall₂ (Shows s.records) s.sent s.offered
  honest : ∀ (n : Nat) (t : Task), s.tasks[n]? = some t → t.Honest s.records
  gone : ∀ (n : Nat) (t : Task), s.tasks[n]? = some t →
    (∃ e, t.prog = .fail e) ∨ t.book.gone ++ t.now.taken = s.takenBy n
  known : ∀ h ∈ s.out, h.task < s.tasks.length

/-- A call goes on: it knows what it knew, and has sent what it was sending. -/
theorem Going.replays {x : Prog Outcome} {b : Book} (h : Going cfg s n t x b)
    (htold : List.Forall₂ (Shows s.records) s.sent s.offered)
    (hothers : ∀ (m : Nat) (t' : Task), m ≠ n → s.tasks[m]? = some t' → t'.Honest s.records ∧
      ((∃ e, t'.prog = .fail e) ∨ t'.book.gone ++ t'.now.taken = s.takenBy m))
    (hbot : ∀ p, b.bot = some p → p ∈ s.records)
    (hmine : ∀ r ∈ b.owed, t.kind.activates = true ∧ t.kind.chat = some r.maxChatId)
    (hgone : b.gone = s.takenBy n) (hknown : ∀ e ∈ s.out, e.task < s.tasks.length) :
    Replays (s.advance cfg n t x b) := by
  have hsettled := settled s.live false h.obeys h.taken
  have hcases {P : Nat → Task → Prop} (hn : P n { t with
      prog := (settle cfg.pendingMaxMessages s.live x b false).1
      book := (settle cfg.pendingMaxMessages s.live x b false).2.1, ready := none })
      (hrest : ∀ m t', m ≠ n → s.tasks[m]? = some t' → P m t') :
      ∀ m t', (s.advance cfg n t x b).tasks[m]? = some t' → P m t' := by
    intro m t' ht'
    by_cases hm : m = n
    · subst hm
      rw [show (s.advance cfg m t x b).tasks[m]? = _ from List.getElem?_set_self h.there] at ht'
      exact Option.some.inj ht' ▸ hn
    · exact hrest m t' hm ((List.getElem?_set_ne (Ne.symm hm)).symm.trans ht')
  refine ⟨htold, hcases ?_ fun m t' hm ht' => (hothers m t' hm ht').1,
    hcases (.inr ?_) fun m t' hm ht' => (hothers m t' hm ht').2, fun e he => ?_⟩
  · refine ⟨fun p hp => hbot p (hsettled.bot ▸ hp), fun r hr => hmine r (hsettled.pays hr),
      fun _ r hr => ?_, nofun⟩
    change r ∈ (settle cfg.pendingMaxMessages s.live x b false).2.1.taken at hr
    rw [hsettled.taken] at hr
    cases hr
  · change (settle cfg.pendingMaxMessages s.live x b false).2.1.gone ++
      (settle cfg.pendingMaxMessages s.live x b false).2.1.taken = s.takenBy n
    rw [hsettled.gone, hsettled.taken, List.append_nil, hgone]
  · rw [show (s.advance cfg n t x b).tasks.length = s.tasks.length from List.length_set]
    exact hknown e he

@[simp] theorem takenBy_toldTo (m : Nat) :
    takenBy { s with out := s.out.map (Handout.toldTo n) } m = s.takenBy m := by
  have htask (h : Handout) : (h.toldTo n).task = h.task := by
    unfold Handout.toldTo
    split <;> rfl
  simp [takenBy, List.filter_map, List.flatMap_map, Function.comp_def, htask]

namespace Replays

/-- What stands still keeps what it knows. -/
theorem others (h : s.Replays) {records : List (String × Int)} (hsub : s.records ⊆ records)
    (m : Nat) (t' : Task) (ht' : s.tasks[m]? = some t') : t'.Honest records ∧
      ((∃ e, t'.prog = .fail e) ∨ t'.book.gone ++ t'.now.taken = s.takenBy m) :=
  ⟨(h.honest m t' ht').mono hsub, h.gone m t' ht'⟩

/-- What a call has taken whose statement, if any, has taken nothing. -/
theorem gone_of (h : s.Replays) (ht : s.tasks[n]? = some t) {op : Op} {k : op.Answer → Prog Outcome}
    (hprog : t.prog = .ask op k) (htaken : t.now.taken = []) : t.book.gone = s.takenBy n := by
  rcases h.gone n t ht with ⟨e, he⟩ | hgone
  · cases hprog.symm.trans he
  · rwa [htaken, List.append_nil] at hgone

/-- What a call is sending is what it offers. -/
theorem shows (h : s.Replays) (hk : s.Kept cfg) (ht : s.tasks[n]? = some t) :
    List.Forall₂ (Shows s.records) t.sending t.offering := by
  unfold Task.sending Task.offering
  split
  · next bridge text k hprog =>
      obtain ⟨-, ⟨-, ⟨chat, hchat, hbot⟩, r, rest, howed, hshown⟩, -⟩ := hk.awaits ht hprog
      have hhonest := h.honest n t ht
      have hmine := (hhonest.mine r (howed ▸ List.mem_cons_self)).2
      obtain rfl : chat = r.maxChatId := Option.some.inj (hchat.symm.trans hmine)
      rw [howed, List.take_succ_cons, List.take_zero]
      exact .cons ⟨hhonest.bot _ hbot, hshown.symm⟩ .nil
  · exact .nil

/-- What several calls are sending, the process dying, is what they offer. -/
theorem shows_all {records : List (String × Int)} (tasks : List Task)
    (h : ∀ t ∈ tasks, List.Forall₂ (Shows records) t.sending t.offering) :
    List.Forall₂ (Shows records) (tasks.flatMap Task.sending) (tasks.flatMap Task.offering) := by
  induction tasks with
  | nil => exact .nil
  | cons t rest ih =>
      rw [List.flatMap_cons, List.flatMap_cons]
      exact List.rel_append (h t List.mem_cons_self)
        (ih fun t' hmem => h t' (List.mem_cons_of_mem _ hmem))

/-- Somebody else than the database has answered, or something is raised. -/
theorem answered (h : s.Replays) (hk : s.Kept cfg) (ht : s.tasks[n]? = some t) {a : Await}
    {k : (Op.await a).Answer → Prog Outcome} (hprog : t.prog = .ask (.await a) k)
    (r : (Op.await a).Answer) (htaken : t.now.taken = []) {records : List (String × Int)}
    (hsub : s.records ⊆ records)
    (hnext : (t.book.next cfg.pendingMaxMessages (.await a) r).taken = [])
    (hbot : ∀ p, (t.book.next cfg.pendingMaxMessages (.await a) r).bot = some p →
      t.book.bot = some p ∨ p ∈ records)
    (howed : (t.book.next cfg.pendingMaxMessages (.await a) r).owed ⊆ t.book.owed)
    (hgone : (t.book.next cfg.pendingMaxMessages (.await a) r).gone = t.book.gone)
    (hgoing : Going cfg { s with
        offered := s.offered ++ t.offering, sent := s.sent ++ t.sending, records } n t (k r)
      ((t.book.next cfg.pendingMaxMessages (.await a) r).resumed t.kind)) :
    Replays ({ s with
        offered := s.offered ++ t.offering, sent := s.sent ++ t.sending, records }.advance cfg n t
      (k r) ((t.book.next cfg.pendingMaxMessages (.await a) r).resumed t.kind)) := by
  rw [Book.resumed_of_taken hnext] at hgoing ⊢
  have hhonest := h.honest n t ht
  refine hgoing.replays ?_ (fun m t' _ ht' => h.others hsub m t' ht') (fun p hp => ?_)
    (fun r hr => hhonest.mine r (howed hr)) ?_ h.known
  · exact Shows.mono (List.rel_append h.told (h.shows hk ht)) hsub
  · exact (hbot p hp).elim (fun hold => hsub (hhonest.bot p hold)) id
  · exact hgone.trans (h.gone_of ht hprog htaken)

theorem answer (h : s.Replays) (hk : s.Kept cfg) (ht : s.tasks[n]? = some t) {a : Await}
    {k : (Op.await a).Answer → Prog Outcome} (hprog : t.prog = .ask (.await a) k)
    {reply : Reply} {r : a.Reply} (hfit : reply.fit a = some r) :
    Replays ({ s with
        offered := s.offered ++ t.offering, sent := s.sent ++ t.sending
        records := s.records ++ a.record }.advance cfg n t (k (.ok r))
      ((t.book.next cfg.pendingMaxMessages (.await a) (.ok r)).resumed t.kind)) := by
  have hbook := (hk.tasks n t ht).taken
  have hnow : t.now = t.book := by
    simp [Task.now, hk.not_ready ht hprog (not_stored_of_fit hfit)]
  refine h.answered hk ht hprog (.ok r) (hnow ▸ hbook) (List.subset_append_left _ _) ?_
    (fun p hp => ?_) ?_ ?_ (hk.answer ht hprog hfit)
  · cases a <;> first | exact hbook | cases reply <;> cases hfit
  · cases a with
    | upsertBridge record =>
        obtain rfl := Option.some.inj hp
        exact .inr (List.mem_append_right _ (List.mem_singleton_self _))
    | _ => exact .inl hp
  · cases a with
    | send u v => exact List.tail_subset _
    | _ => exact List.Subset.refl _
  · cases a <;> first | rfl | cases reply <;> cases hfit

theorem fault (h : s.Replays) (hk : s.Kept cfg) (ht : s.tasks[n]? = some t) {a : Await}
    {k : (Op.await a).Answer → Prog Outcome} (hprog : t.prog = .ask (.await a) k) (f : Fault)
    (htaken : t.now.taken = []) (howes : t.owes = [] ∨ f ≠ .cancelled) :
    Replays ({ s with
        offered := s.offered ++ t.offering, sent := s.sent ++ t.sending }.advance cfg n t
      (k (.error f))
      ((t.book.next cfg.pendingMaxMessages (.await a) (.error f)).resumed t.kind)) := by
  have hbook := (hk.tasks n t ht).taken
  refine h.answered hk ht hprog (.error f) htaken (List.Subset.refl _) ?_ (fun p hp => .inl ?_) ?_
    ?_ (hk.fault ht hprog f htaken howes)
  · cases a <;> exact hbook
  · cases a <;> exact hp
  · cases a with
    | send u v => exact List.tail_subset _
    | _ => exact List.Subset.refl _
  · cases a <;> rfl

/-- The result of a statement comes back. -/
theorem resume (h : s.Replays) (hk : s.Kept cfg) (ht : s.tasks[n]? = some t) {x : Prog Outcome}
    {b : Book} (hready : t.ready = some (x, b))
    (hgoing : Going cfg { s with out := s.out.map (Handout.toldTo n) } n t x (b.resumed t.kind)) :
    Replays ({ s with out := s.out.map (Handout.toldTo n) }.advance cfg n t x
      (b.resumed t.kind)) := by
  obtain ⟨⟨a, k, hprog, -⟩, -, howed, -⟩ := (hk.tasks n t ht).ready x b hready
  have hhonest := h.honest n t ht
  obtain ⟨hbot, hgone⟩ := hhonest.ready x b hready
  have hnow : t.now = b := by simp [Task.now, hready]
  refine hgoing.replays h.told (fun m t' _ ht' => ?_)
    (fun p hp => hhonest.bot p (hbot ▸ hp)) (fun r hr => ?_) ?_ fun e he => ?_
  · simpa using h.others (List.Subset.refl _) m t' ht'
  · simp only [Book.resumed, howed, List.nil_append] at hr
    split at hr
    · next hact => exact ⟨hact, hhonest.taken hact r (hnow ▸ (List.mem_filter.mp hr).1)⟩
    · cases hr
  · rcases h.gone n t ht with ⟨e, he⟩ | htaken
    · cases hprog.symm.trans he
    · rw [takenBy_toldTo, ← htaken, hnow]
      exact hgone
  · obtain ⟨e, hmem, rfl⟩ := List.mem_map.mp he
    unfold Handout.toldTo
    split
    · exact h.known e hmem
    · exact h.known e hmem

/-- A statement is executed; `rows` are what it takes. -/
theorem executed (h : s.Replays) (hk : s.Kept cfg) (ht : s.tasks[n]? = some t) {a : Await}
    {k : (Op.await a).Answer → Prog Outcome} (hprog : t.prog = .ask (.await a) k)
    (hready : t.ready = none) {x : Prog Outcome} {b : Book} {d : Disk} {buffered due : List Row}
    {out : List Handout} (hbot : b.bot = t.book.bot) (hgone : b.gone = t.book.gone ++ b.taken)
    (hout : out = s.out ∧ b.taken = [] ∨
      out = s.out ++ [⟨n, t.kind.activates, b.taken, false⟩])
    (hrows : t.kind.activates = true → ∀ r ∈ b.taken, t.kind.chat = some r.maxChatId) :
    Replays { s with
      disk := d, buffered, due, out, tasks := s.tasks.set n { t with ready := some (x, b) } } := by
  have hlt := (List.getElem?_eq_some_iff.mp ht).1
  have hhonest := h.honest n t ht
  have hnow : t.now = t.book := by simp [Task.now, hready]
  have hmine := h.gone_of ht hprog (hnow ▸ (hk.tasks n t ht).taken)
  have htakenBy (m : Nat) :
      takenBy { s with disk := d, buffered, due, out, tasks := s.tasks.set n { t with ready := some (x, b) } } m =
        s.takenBy m ++ if m = n then b.taken else [] := by
    rcases hout with ⟨rfl, hnil⟩ | rfl
    · simp [takenBy, hnil]
    · by_cases hm : m = n
      · simp [takenBy, hm, List.filter_append]
      · simp [takenBy, hm, List.filter_append, Ne.symm hm]
  have hcases {P : Nat → Task → Prop} (hn : P n { t with ready := some (x, b) })
      (hrest : ∀ m t', m ≠ n → s.tasks[m]? = some t' → P m t') :
      ∀ m t', (s.tasks.set n { t with ready := some (x, b) })[m]? = some t' → P m t' := by
    intro m t' ht'
    by_cases hm : m = n
    · subst hm
      rw [List.getElem?_set_self hlt] at ht'
      exact Option.some.inj ht' ▸ hn
    · exact hrest m t' hm ((List.getElem?_set_ne (Ne.symm hm)).symm.trans ht')
  refine ⟨h.told, hcases ⟨hhonest.bot, hhonest.mine, hrows, ?_⟩ fun m t' _ => h.honest m t',
    hcases (.inr ?_) fun m t' hm ht' => ?_, fun e he => ?_⟩
  · rintro _ _ ⟨rfl⟩
    exact ⟨hbot, hgone⟩
  · rw [htakenBy, if_pos rfl, ← hmine]
    rfl
  · rw [htakenBy, if_neg hm, List.append_nil]
    exact h.gone m t' ht'
  · rw [List.length_set]
    rcases hout with ⟨rfl, -⟩ | rfl
    · exact h.known e he
    · rcases List.mem_append.mp he with he | he
      · exact h.known e he
      · exact List.mem_singleton.mp he ▸ hlt

theorem exec (h : s.Replays) (hk : s.Kept cfg) (ht : s.tasks[n]? = some t) {a : Await}
    {k : (Op.await a).Answer → Prog Outcome} (hprog : t.prog = .ask (.await a) k)
    (hready : t.ready = none) {now : Int} {r : a.Reply} {d : Disk}
    (hperform : s.disk.perform now a = some (r, d))
    (hheld : ∀ chat, a = .deleteHeld chat → s.disk.held chat = t.book.read) :
    Replays { s.wrote n t d a (t.book.next cfg.pendingMaxMessages (.await a) (.ok r)) with
      tasks := s.tasks.set n { t with
        ready := some (k (.ok r), t.book.next cfg.pendingMaxMessages (.await a) (.ok r)) } } := by
  have hallows := (hk.awaits ht hprog).2.1
  have htaken := (hk.tasks n t ht).taken
  have hnothing (b : Book) (hb : b.taken = t.book.taken) :
      t.kind.activates = true → ∀ r ∈ b.taken, t.kind.chat = some r.maxChatId := by
    rw [hb, htaken]
    exact fun _ => nofun
  cases a with
  | deleteHeld chat =>
      refine h.executed hk ht hprog hready rfl rfl (.inr rfl) fun _ r hr => ?_
      have hmem : r ∈ s.disk.held chat := (hheld chat rfl).symm ▸ hr
      rw [hallows.2, ← of_decide_eq_true (List.mem_filter.mp hmem).2]
  | deleteOld cutoff =>
      refine h.executed hk ht hprog hready rfl rfl (.inr rfl) fun hact => ?_
      exact absurd (hallows.2.symm.trans hact) nofun
  | insertHeld | getContact | upsertContact | setState | markAsked | countHeld | selectHeld
  | selectOld =>
      refine h.executed hk ht hprog hready rfl ?_ (.inl ⟨rfl, htaken⟩) (hnothing _ rfl)
      simp [Book.next, htaken]
  | acquire | byMaxChat | uniqueName | saveSecret | upsertBridge | add | send => cases hperform

theorem crash (h : s.Replays) (hk : s.Kept cfg) {live : String → Bool} :
    Replays { s with
      holder := none, live
      offered := s.offered ++ s.tasks.flatMap Task.offering
      sent := s.sent ++ s.tasks.flatMap Task.sending
      tasks := s.tasks.map fun t =>
        { t with prog := .fail (.fault .cancelled), book := {}, ready := none } } where
  told := by
    refine List.rel_append h.told (shows_all s.tasks fun t hmem => ?_)
    obtain ⟨n, ht⟩ := List.mem_iff_getElem?.mp hmem
    exact h.shows hk ht
  honest n t ht := by
    simp only [List.getElem?_map, Option.map_eq_some_iff] at ht
    obtain ⟨_, -, rfl⟩ := ht
    exact ⟨nofun, nofun, fun _ => nofun, nofun⟩
  gone n t ht := by
    simp only [List.getElem?_map, Option.map_eq_some_iff] at ht
    obtain ⟨_, -, rfl⟩ := ht
    exact .inl ⟨_, rfl⟩
  known e he := by simpa using h.known e he

/-- A call comes. -/
theorem call (h : s.Replays) {kind : Kind} {begun : List Int} {due : List Row}
    (hgoing : Going cfg { s with begun, due, tasks := s.tasks ++ [{ kind, prog := kind.program cfg }] }
      s.tasks.length { kind, prog := kind.program cfg } (kind.program cfg) {}) :
    Replays (State.advance cfg
      { s with begun, due, tasks := s.tasks ++ [{ kind, prog := kind.program cfg }] }
      s.tasks.length { kind, prog := kind.program cfg } (kind.program cfg) {}) := by
  refine hgoing.replays h.told (fun m t' hm ht' => ?_) nofun nofun ?_ fun e he => ?_
  · refine h.others (List.Subset.refl _) m t' ?_
    rw [List.getElem?_append] at ht'
    split at ht'
    · exact ht'
    · obtain ⟨hlt, -⟩ := List.getElem?_eq_some_iff.mp ht'
      simp only [List.length_singleton] at hlt
      omega
  · have hnobody : (s.out.filter fun e => decide (e.task = s.tasks.length)) = [] :=
      List.filter_eq_nil_iff.mpr fun e he =>
        by simpa using Nat.ne_of_lt (h.known e he)
    simp [takenBy, hnobody]
  · have hlt := h.known e he
    simp only [List.length_append, List.length_singleton]
    omega

theorem step {s' : State} (h : s.Replays) (hk : s.Kept cfg) {e : Event}
    (hok : s.careful e = true) (hst : State.step cfg s e = some s') : s'.Replays := by
  cases stepped hst with
  | activate chat token name =>
      exact h.call (hk.call (.activate chat token name) (fun r hr => (hk.of_due chat r hr).1)
        fun r hr => (hk.of_due chat r hr).2)
  | call hkind => exact h.call (hk.call _ (fun r hr => .inl hr) hk.begun)
  | @acquire n t k ht hprog hfree =>
      have hhonest := h.honest n t ht
      have hnow : t.now = t.book := by simp [Task.now, hk.not_ready ht hprog rfl]
      refine (hk.acquire ht hprog hfree).replays h.told
        (fun m t' _ ht' => h.others (List.Subset.refl _) m t' ht') hhonest.bot hhonest.mine ?_
        h.known
      exact h.gone_of ht hprog (hnow ▸ (hk.tasks n t ht).taken)
  | exec ht hprog hready hperform =>
      simp only [careful, ht, Option.all_some, hprog] at hok
      refine h.exec hk ht hprog hready hperform ?_
      rintro chat rfl
      exact of_decide_eq_true (Bool.and_eq_true _ _ ▸ hok).1
  | resume ht hready =>
      exact h.resume hk ht hready (hk.resume ht hready (Kept.pays_of_careful ht hready hok))
  | answer ht hprog hfit => exact h.answer hk ht hprog hfit
  | fault ht hprog =>
      simp only [careful, ht, Option.all_some, Bool.and_eq_true, Bool.or_eq_true,
        decide_eq_true_eq] at hok
      exact h.fault hk ht hprog _ hok.1 hok.2
  | registry bridge live => exact ⟨h.told, h.honest, h.gone, h.known⟩
  | crash => exact h.crash hk

theorem start (cfg : Config) : Replays (sys cfg).start where
  told := .nil
  honest _ _ ht := by simp [sys] at ht
  gone _ _ ht := by simp [sys] at ht
  known := nofun

theorem lossless (h : s.Replays) (hk : s.Kept cfg) : s.Lossless cfg where
  once := hk.stored.once
  distinct := hk.stored.increasing.imp fun hlt heq => absurd (heq ▸ hlt) (Nat.lt_irrefl _)
  handed := hk.handed
  order := hk.stored.order
  cap := hk.stored.cap
  counted n t count ht hprog := by
    have hkept := hk.tasks n t ht
    have hobeys := hkept.obeys
    rw [hprog] at hobeys
    have hready := (hkept.ended (by simp [Task.isOver, hprog])).2
    rcases h.gone n t ht with ⟨e, he⟩ | hgone
    · cases hprog.symm.trans he
    · rw [Task.now, hready, Option.elim_none, hkept.taken, List.append_nil] at hgone
      rw [← hgone]
      exact hobeys.counted count rfl
  carried r hr := by
    rcases hk.carried r hr with (hdisk | hoffered) | ⟨n, t, ht, hc⟩
    · exact .inl hdisk
    · exact .inr (.inl hoffered)
    · have hkept := hk.tasks n t ht
      refine .inr (.inr ⟨t, List.mem_of_getElem? ht, ?_, ?_, hc.imp_right (·.2)⟩)
      · -- A call that is over owes nothing and has nothing on its way.
        by_contra hover
        obtain ⟨howed, hready⟩ := hkept.ended (by simpa using hover)
        rw [howed, Task.now, hready, Option.elim_none, hkept.taken] at hc
        rcases hc with hrow | ⟨-, hrow⟩ <;> cases hrow
      · exact hc.elim (fun hrow => ((h.honest n t ht).mine r hrow).1) (·.1)
  told := h.told

end Replays

end State

/-- **The pending inbox loses and doubles nothing**, in every run in which what is deleted is
what was read, no sweep takes what an activation is to have, and no activation is stopped between
the two ends of its replay. -/
theorem nothing_lost (cfg : Config) (s : State)
    (h : Run.Reaches (sys cfg) (fun s e => s.careful e = true) s) : s.Lossless cfg := by
  have hboth : s.Kept cfg ∧ s.Replays := by
    induction h with
    | start => exact ⟨State.Kept.start cfg, State.Replays.start cfg⟩
    | step _ hok hst ih => exact ⟨ih.1.step hok hst, ih.2.step ih.1 hok hst⟩
  exact hboth.2.lossless hboth.1

/-! ## a message from a contact whose bridge is coming up -/

def defaults : Config := ⟨false, 200, 7, fun _ => true⟩

def saying (text : String) : IncomingMaxMessage := ⟨1, 5, some 5, text, 0, []⟩

/-- `n` statements of a call, one after the other. -/
def statements (task n : Nat) : List Event :=
  (List.replicate n [.exec task 0, .resume task]).flatten

/-- One message has been buffered, and the activation is about to drain. -/
def comingUp : List Event :=
  [.call (.message (saying "one") none), .acquire 0] ++ statements 0 7 ++
    [.call (.activate 5 "token" none), .answer 1 (.bridge none), .answer 1 (.name "chat5"),
      .answer 1 .done, .answer 1 .done, .registry "chat5" true, .answer 1 (.bot (some 9)),
      .answer 1 .done] ++ statements 1 1

/-- The backlog is drained and replayed; the next message is held again. -/
theorem nothing_lost_replayed :
    ∃ s, Run.Reaches (sys defaults) (fun s e => s.careful e = true) s ∧
      s.offered.map (·.payload.text) = ["one"] ∧ s.sent = [("chat5", "one")] ∧
      s.disk.inbox.map (·.payload.text) = ["two"] ∧ s.Lossless defaults := by
  obtain ⟨s, hs, hfinal⟩ := Run.Reaches.exists_of_play (sys defaults) State.careful
    (comingUp ++ statements 1 2 ++ [.answer 1 .done, .call (.message (saying "two") none),
      .acquire 2] ++ statements 2 7)
    (fun s => decide (s.offered.map (·.payload.text) = ["one"] ∧ s.sent = [("chat5", "one")] ∧
      s.disk.inbox.map (·.payload.text) = ["two"])) (by decide +kernel)
  obtain ⟨hoffered, hsent, hinbox⟩ := of_decide_eq_true hfinal
  exact ⟨s, hs, hoffered, hsent, hinbox, nothing_lost defaults s hs⟩

/-- A message comes between the two statements of the drain: it is deleted with the others, and
nobody has it. -/
theorem not_nothing_lost :
    ∃ s, Run.Reaches (sys defaults) Run.anyStep s ∧
      s.buffered.map (·.payload.text) = ["one", "two"] ∧ s.disk.inbox = [] ∧
      (s.out.flatMap (·.rows)).map (·.payload.text) = ["one"] ∧ ¬s.Lossless defaults := by
  obtain ⟨s, hs, hfinal⟩ := Run.Reaches.exists_of_play (sys defaults) (fun _ _ => true)
    (comingUp ++ statements 1 1 ++ [.call (.message (saying "two") none), .acquire 2] ++
      statements 2 7 ++ statements 1 1 ++ [.answer 1 .done])
    (fun s => decide (s.buffered.map (·.payload.text) = ["one", "two"] ∧ s.disk.inbox = [] ∧
      (s.out.flatMap (·.rows)).map (·.payload.text) = ["one"])) (by decide +kernel)
  obtain ⟨hbuffered, hinbox, hout⟩ := of_decide_eq_true hfinal
  refine ⟨s, hs.mono fun _ _ _ => trivial, hbuffered, hinbox, hout, fun h => ?_⟩
  have hlength := (h.once.map (·.payload.text)).length_eq
  rw [hbuffered, hinbox, List.nil_append, hout] at hlength
  exact absurd hlength (by decide)

end Telemax.Provisioning.Pending
