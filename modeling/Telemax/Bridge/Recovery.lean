import Telemax.Bridge.Steps

/-!
# Telemax.Bridge.Recovery

A message from MAX is claimed in one transaction and gets its job in another.
What a crash leaves between the two is released by the next start: the claims of
the run that has ended, by the moment at which that run began.

The bound is `process_started_at`, and the same start overwrites it before it
releases anything.  `Bounded` is what holds as long as no crash comes in between
with claims still to release; `ReleasesUnsent` holds of every run: what is
released never reached a sender.
-/

namespace Telemax.Bridge

open MessageMap

/-! ## jobs stay -/

/-- Every row is still there, as the row of its job. -/
def RowsKept (o o' : Outbox) : Prop :=
  ∀ i r, o.get? i = some r → ∃ r', o'.get? i = some r' ∧ SameJob r r'

theorem After.rows_kept {s t : State} {e : Event} (h : After s t e) :
    RowsKept s.queue.outbox t.queue.outbox := by
  have hstep : ∀ qe, Queue.step s.queue qe = some t.queue →
      RowsKept s.queue.outbox t.queue.outbox := by
    intro qe hq i r hr
    obtain ⟨r', hr', hc⟩ := (Queue.step_after hq).row_kept hr
    exact ⟨r', hr', hc.sameJob⟩
  cases h.queue with
  | same hq =>
      rw [hq]
      exact fun i r hr => ⟨r, hr, rfl, rfl, rfl, rfl⟩
  | queue _ hq | crash hq | deliver _ hq => exact hstep _ hq
  | write _ hq hw =>
      rw [hq]
      intro i r hr
      obtain ⟨r', hr', hsame, -⟩ := hw.1 i r hr
      exact ⟨r', hr', hsame⟩

/-- A message that has a job keeps it. -/
theorem RowsKept.jobOf {o o' : Outbox} (h : RowsKept o o') {r : MessageLink}
    (hr : (jobOf o r).isSome = true) : (jobOf o' r).isSome = true := by
  cases hm : r.maxMessageId with
  | none => simp [MessageMap.jobOf, hm] at hr
  | some message =>
      simp only [MessageMap.jobOf, hm, Option.bind_some] at hr ⊢
      obtain ⟨⟨i, row⟩, hkey⟩ := Option.isSome_iff_exists.mp hr
      obtain ⟨hrow, hk⟩ := Outbox.bySourceKey_some hkey
      obtain ⟨row', hrow', -, -, -, hk'⟩ := h i row hrow
      cases hnew : o'.bySourceKey (maxSourceKey r.maxChatId message) with
      | some _ => rfl
      | none => exact absurd (hk'.trans hk) (Outbox.bySourceKey_none hnew hrow')

/-- What the queue may do before the service is up adds no job. -/
theorem not_rowBorn_of_allows {s : State} {qe : Queue.Event} (hs : s.startup ≠ .serving)
    (hok : s.allows qe = true) {i : Nat} {r : OutboxItem} {l : Option Nat} :
    ¬ Queue.RowBorn s.queue i qe r l := by
  intro hborn
  cases hborn <;> simp [State.allows, hs] at hok

theorem not_rowBorn_crash {q : Queue.State} {i : Nat} {r : OutboxItem} {l : Option Nat} :
    ¬ Queue.RowBorn q i .crash r l := by
  rintro ⟨⟩

/-- Until the service is up no job is added. -/
theorem After.rows_from {s t : State} {e : Event} (h : After s t e)
    (hs : s.startup ≠ .serving) {i : Nat} {r' : OutboxItem}
    (hr : t.queue.outbox.get? i = some r') :
    ∃ r, s.queue.outbox.get? i = some r ∧ SameJob r r' := by
  cases h.queue with
  | same hq => exact ⟨r', by rw [← hq]; exact hr, rfl, rfl, rfl, rfl⟩
  | crash hq =>
      rcases (Queue.step_after hq).row_from hr with ⟨r, hr, hc⟩ | ⟨-, hborn⟩
      · exact ⟨r, hr, hc.sameJob⟩
      · exact absurd hborn not_rowBorn_crash
  | queue hok hq =>
      rcases (Queue.step_after hq).row_from hr with ⟨r, hr, hc⟩ | ⟨-, hborn⟩
      · exact ⟨r, hr, hc.sameJob⟩
      · exact absurd hborn (not_rowBorn_of_allows hs hok)
  | deliver hserving | write hserving => exact absurd hserving hs

/-! ## claims without a job -/

/-- A claim without a job was one before, of the same age. -/
theorem unsentClaim_back {s t : State} {e : Event} {i : Nat} {r r' : MessageLink}
    (h : After s t e) (hc : LinkChange s i r e r')
    (hu : unsentClaim t.queue.outbox r' = true) :
    unsentClaim s.queue.outbox r = true ∧ r'.createdAt = r.createdAt := by
  simp only [unsentClaim, Bool.and_eq_true, Bool.not_eq_true', beq_iff_eq,
    Option.isNone_iff_eq_none] at hu ⊢
  obtain ⟨⟨hdir, hdel⟩, hjob⟩ := hu
  have hjob_of : ∀ x : MessageLink, jobOf t.queue.outbox x = none →
      jobOf s.queue.outbox x = none := by
    intro x hx
    cases hsome : jobOf s.queue.outbox x with
    | none => rfl
    | some j =>
        have hkept := h.rows_kept.jobOf (r := x) (by rw [hsome]; rfl)
        rw [hx] at hkept
        cases hkept
  cases hc with
  | same => exact ⟨⟨⟨hdir, hdel⟩, hjob_of _ hjob⟩, rfl⟩
  | telegram => simp [delivered] at hdel
  | owner => simp [delivered] at hdel
  | answered hx hstage hlink hfree =>
      refine ⟨⟨⟨hdir, hdel⟩, ?_⟩, rfl⟩
      rcases hfree with hfree | hfree
      · simp [MessageMap.jobOf, hfree]
      · refine hjob_of _ ?_
        rw [← hjob]
        simp only [MessageMap.jobOf, hfree]

/-- A claim without a job, until the service is up, stays one. -/
theorem unsentClaim_forth {s t : State} {e : Event} {r : MessageLink} (h : After s t e)
    (hs : s.startup ≠ .serving) (hu : unsentClaim s.queue.outbox r = true) :
    unsentClaim t.queue.outbox r = true := by
  simp only [unsentClaim, Bool.and_eq_true, Bool.not_eq_true', beq_iff_eq,
    Option.isNone_iff_eq_none] at hu ⊢
  obtain ⟨hrest, hjob⟩ := hu
  refine ⟨hrest, ?_⟩
  cases hm : r.maxMessageId with
  | none => simp [MessageMap.jobOf, hm]
  | some message =>
      simp only [MessageMap.jobOf, hm, Option.bind_some] at hjob ⊢
      cases hkey : t.queue.outbox.bySourceKey (maxSourceKey r.maxChatId message) with
      | none => rfl
      | some found =>
          obtain ⟨hrow', hk'⟩ := Outbox.bySourceKey_some hkey
          obtain ⟨row, hrow, -, -, -, hk⟩ := h.rows_from hs hrow'
          exact absurd (hk.symm.trans hk') (Outbox.bySourceKey_none hjob hrow)

/-! ## the bound of the release -/

/-- Every claim without a job is one that the next release, or the one under way,
will select. -/
def Bounded (s : State) : Prop :=
  ∀ i r, s.map.get? i = some r → unsentClaim s.queue.outbox r = true →
    match s.startup with
    | .recovering => ∃ started, s.processStartedAt = some started ∧ started ≤ r.createdAt
    | .previousRead since | .noted since => ∃ started, since = some started ∧ started ≤ r.createdAt
    | .releasing todo => i ∈ todo
    | .forgetting link todo => i = link ∨ i ∈ todo
    | .serving => True

/-- A crash finds no claim without a job that was stamped before the start
recorded in `process_started_at`. -/
def crashesInTime (s : State) : Event → Bool
  | .crash =>
      (s.map.select fun _ r => unsentClaim s.queue.outbox r).all fun r =>
        s.processStartedAt.any fun started => decide (started ≤ r.2.createdAt)
  | _ => true

theorem Bounded.crash {s : State} (hok : crashesInTime s .crash = true) : Bounded s.crash := by
  intro i r hr hu
  have hback := unsentClaim_back (after_crash s) (.same (i := i) (r := r)) hu
  simp only [crashesInTime, List.all_eq_true] at hok
  have hin := hok (i, r) (Table.mem_select.mpr ⟨hr, hback.1⟩)
  simp only [Option.any_eq_true, decide_eq_true_eq] at hin
  exact hin

/-- The start, step by step: the bound it has read travels to the release. -/
theorem Bounded.startup {s t : State} {e : Event} (hs : Bounded s)
    (hst : stepStartup s e = some t) : Bounded t := by
  cases e with
  | readPreviousStart =>
      simp only [stepStartup] at hst
      split at hst
      · next hrec =>
          obtain rfl := Option.some.inj hst
          intro i r hr hu
          have hbound := hs i r hr hu
          rw [hrec.1] at hbound
          exact hbound
      · cases hst
  | noteStart =>
      simp only [stepStartup] at hst
      split at hst
      · next since hrec =>
          obtain rfl := Option.some.inj hst
          intro i r hr hu
          have hbound := hs i r hr hu
          rw [hrec] at hbound
          exact hbound
      · cases hst
  | releaseSelect =>
      simp only [stepStartup] at hst
      split at hst
      · next hrec =>
          obtain rfl := Option.some.inj hst
          intro i r hr hu
          have hbound := hs i r hr hu
          rw [hrec] at hbound
          obtain ⟨started, hnone, -⟩ := hbound
          cases hnone
      · next since hrec =>
          obtain rfl := Option.some.inj hst
          intro i r hr hu
          have hbound := hs i r hr hu
          rw [hrec] at hbound
          obtain ⟨started, hsome, hle⟩ := hbound
          obtain rfl := Option.some.inj hsome
          have hmem : (i, r) ∈ s.map.unsentClaims s.queue.outbox since :=
            Table.mem_select.mpr ⟨hr, by rw [hu]; simpa using hle⟩
          exact List.mem_map_of_mem (f := (·.1)) hmem
      · cases hst
  | clearLink =>
      simp only [stepStartup] at hst
      split at hst
      · next link todo hrec =>
          obtain rfl := Option.some.inj hst
          intro i r hr hu
          have hbound := hs i r hr hu
          rw [hrec] at hbound
          exact List.mem_cons.mp hbound
      · cases hst
  | forget =>
      simp only [stepStartup] at hst
      split at hst
      · next link todo hrec =>
          obtain rfl := Option.some.inj hst
          intro i r hr hu
          obtain ⟨hr, hne⟩ : s.map.get? i = some r ∧ i ≠ link := by
            simpa [MessageMap.forget, Table.get?_delete] using hr
          have hbound := hs i r hr hu
          rw [hrec] at hbound
          exact hbound.resolve_left hne
      · cases hst
  | serve =>
      simp only [stepStartup] at hst
      split at hst
      · obtain rfl := Option.some.inj hst
        exact fun i r hr hu => trivial
      · cases hst
  | _ => cases hst

/-- One step keeps the bound, unless it is a crash that comes too late. -/
theorem Bounded.step {s t : State} {e : Event} (hs : Bounded s)
    (hok : crashesInTime s e = true) (hst : step s e = some t) : Bounded t := by
  have hafter := step_after hst
  by_cases he : e.ofStart = true
  · by_cases hc : e = .crash
    · subst hc
      obtain rfl := Option.some.inj hst
      exact .crash hok
    · rw [step_ofStart he hc] at hst
      exact hs.startup hst
  · have hkept := hafter.start.resolve_right he
    intro i r' hr' hu
    rw [hkept.startup, hkept.processStartedAt]
    cases hserving : s.startup with
    | serving => trivial
    | _ =>
        have hidle := hkept.idle (by simp [hserving])
        rw [hidle.1] at hr'
        obtain ⟨hu, -⟩ := unsentClaim_back hafter (.same (i := i) (r := r')) hu
        have hbound := hs i r' hr' hu
        rw [hserving] at hbound
        exact hbound

/-- When the start is complete every claim has its job or its message. -/
theorem Bounded.serve {s t : State} (hs : Bounded s) (hst : Bridge.step s .serve = some t) {i : Nat}
    {r : MessageLink} (hr : t.map.get? i = some r) (hdir : r.direction = .maxToTg) :
    delivered r = true ∨ (jobOf t.queue.outbox r).isSome = true := by
  simp only [Bridge.step, stepStartup] at hst
  split at hst
  · next hrec =>
      obtain rfl := Option.some.inj hst
      by_contra hnot
      have hu : unsentClaim s.queue.outbox r = true := by
        simpa [unsentClaim, hdir, not_or] using hnot
      have hbound := hs i r hr hu
      rw [hrec] at hbound
      cases hbound
  · cases hst

/-! ## what is released -/

/-- What the release is about to take is a claim without a job, and the aliases
go before their claim. -/
def ReleasesUnsent (s : State) : Prop :=
  match s.startup with
  | .releasing todo =>
      ∀ i ∈ todo, ∀ r, s.map.get? i = some r → unsentClaim s.queue.outbox r = true
  | .forgetting link todo =>
      (∀ i ∈ link :: todo, ∀ r, s.map.get? i = some r → unsentClaim s.queue.outbox r = true) ∧
        ∀ j p, s.albums.get? j = some p → p.linkId ≠ some link
  | _ => True

theorem ReleasesUnsent.startup {s t : State} {e : Event} (hs : ReleasesUnsent s)
    (hst : stepStartup s e = some t) : ReleasesUnsent t := by
  cases e with
  | readPreviousStart | noteStart =>
      simp only [stepStartup] at hst
      split at hst
      · obtain rfl := Option.some.inj hst
        exact trivial
      · cases hst
  | releaseSelect =>
      simp only [stepStartup] at hst
      split at hst
      · obtain rfl := Option.some.inj hst
        exact fun i hi => absurd hi List.not_mem_nil
      · next since hrec =>
          obtain rfl := Option.some.inj hst
          intro i hi r hr
          obtain ⟨⟨i, r'⟩, hmem, rfl⟩ := List.mem_map.mp hi
          obtain ⟨hr', hu⟩ := Table.mem_select.mp hmem
          rw [hr', Option.some.injEq] at hr
          simp only [Bool.and_eq_true] at hu
          exact hr ▸ hu.1
      · cases hst
  | clearLink =>
      simp only [stepStartup] at hst
      split at hst
      · next link todo hrec =>
          obtain rfl := Option.some.inj hst
          simp only [ReleasesUnsent, hrec] at hs
          refine ⟨hs, fun j p hp => ?_⟩
          obtain ⟨-, hne⟩ : s.albums.get? j = some p ∧ p.linkId ≠ some link := by
            simpa [MediaGroups.clearLink, Table.get?_delete, Option.filter_eq_some_iff] using hp
          exact hne
      · cases hst
  | forget =>
      simp only [stepStartup] at hst
      split at hst
      · next link todo hrec =>
          obtain rfl := Option.some.inj hst
          simp only [ReleasesUnsent, hrec] at hs
          intro i hi r hr
          obtain ⟨hr, -⟩ : s.map.get? i = some r ∧ i ≠ link := by
            simpa [MessageMap.forget, Table.get?_delete] using hr
          exact hs.1 i (List.mem_cons_of_mem _ hi) r hr
      · cases hst
  | serve =>
      simp only [stepStartup] at hst
      split at hst
      · obtain rfl := Option.some.inj hst
        exact trivial
      · cases hst
  | _ => cases hst

theorem ReleasesUnsent.step {s t : State} {e : Event} (hs : ReleasesUnsent s)
    (hst : step s e = some t) : ReleasesUnsent t := by
  have hafter := step_after hst
  by_cases he : e.ofStart = true
  · by_cases hc : e = .crash
    · subst hc
      obtain rfl := Option.some.inj hst
      exact trivial
    · rw [step_ofStart he hc] at hst
      exact hs.startup hst
  · have hkept := hafter.start.resolve_right he
    unfold ReleasesUnsent at hs ⊢
    rw [hkept.startup]
    cases hrec : s.startup with
    | releasing todo =>
        have hne : s.startup ≠ .serving := by simp [hrec]
        rw [hrec] at hs
        rw [(hkept.idle hne).1]
        exact fun i hi r hr => unsentClaim_forth hafter hne (hs i hi r hr)
    | forgetting link todo =>
        have hne : s.startup ≠ .serving := by simp [hrec]
        rw [hrec] at hs
        rw [(hkept.idle hne).1, (hkept.idle hne).2]
        exact ⟨fun i hi r hr => unsentClaim_forth hafter hne (hs.1 i hi r hr), hs.2⟩
    | _ => trivial

theorem releasesUnsent_of_reaches {ok : State → Event → Prop} {s : State}
    (h : Run.Reaches system ok s) : ReleasesUnsent s :=
  h.invariant trivial fun _ _ _ hinv _ hst => hinv.step hst

/-! ## what the log knows -/

/-- The facts of the queue that the log rests on. -/
def QueueLogged (s : State) : Prop := Queue.Claimed s.queue ∧ Queue.Logged s.queue

theorem QueueLogged.step {s t : State} {e : Event} (hs : QueueLogged s)
    (hst : step s e = some t) : QueueLogged t := by
  have hafter := step_after hst
  have hstep : ∀ qe, Queue.step s.queue qe = some t.queue → QueueLogged t := fun qe hq =>
    ⟨hs.1.step (Queue.step_after hq), hs.2.step hs.1 (Queue.step_after hq)⟩
  cases hafter.queue with
  | same hq =>
      unfold QueueLogged
      rw [hq]
      exact hs
  | queue _ hq | crash hq | deliver _ hq => exact hstep _ hq
  | write _ hq _ =>
      have hkept := hafter.rows_kept
      unfold QueueLogged
      rw [hq] at hkept ⊢
      constructor
      · intro a x hx hp
        obtain ⟨r, hr, hfit⟩ := hs.1 a x hx hp
        obtain ⟨r', hr', hsame⟩ := hkept _ r hr
        exact ⟨r', hr', hfit.of_sameJob hsame⟩
      · intro m hm
        obtain ⟨hattempt, r, hr⟩ := hs.2 m hm
        obtain ⟨r', hr', -⟩ := hkept _ r hr
        exact ⟨hattempt, r', hr'⟩

theorem queueLogged_of_reaches {ok : State → Event → Prop} {s : State}
    (h : Run.Reaches system ok s) : QueueLogged s :=
  h.invariant ⟨fun _ _ hx => by simp [system] at hx, fun _ hm => by simp [system] at hm⟩
    fun _ _ _ hinv _ hst => hinv.step hst

/-- The message under this key has reached a sender: an attempt on its job
entered one. -/
def ReachedSender (s : State) (key : String) : Prop :=
  ∃ job a bridge direction, Mark.entered job a bridge direction ∈ s.queue.log ∧
    ∀ r, s.queue.outbox.get? job = some r → r.sourceKey = some key

/-- What has no job has not reached a sender. -/
theorem QueueLogged.not_reachedSender {s : State} (hs : QueueLogged s) {key : String}
    (hnone : s.queue.outbox.bySourceKey key = none) : ¬ ReachedSender s key := by
  rintro ⟨job, a, bridge, direction, hmem, hkey⟩
  obtain ⟨-, r, hr⟩ := hs.2 _ hmem
  exact Outbox.bySourceKey_none hnone hr (hkey r hr)

/-! ## the result -/

/-- What a run leaves of a claim it has released. -/
structure Released (s t : State) (i : Nat) (r : MessageLink) : Prop where
  /-- The claim was a claim on a MAX message without a Telegram id or a job. -/
  unsent : unsentClaim s.queue.outbox r = true
  /-- Its message had reached no sender. -/
  unsentMessage : ∀ message, r.maxMessageId = some message →
    ¬ ReachedSender s (maxSourceKey r.maxChatId message)
  /-- Its aliases are gone with it. -/
  aliases : ∀ j p, t.albums.get? j = some p → p.linkId ≠ some i

theorem released_of_forgotten {s t : State} {e : Event} (hs : ReleasesUnsent s)
    (hlog : QueueLogged s) (hst : step s e = some t) {i : Nat} {r : MessageLink}
    (hr : s.map.get? i = some r) (hnone : t.map.get? i = none) : Released s t i r := by
  have hlink := (step_after hst).link i
  unfold LinkAfter at hlink
  rw [hr] at hlink
  rcases hlink with ⟨r', hr', -⟩ | ⟨-, rfl, todo, hrec⟩
  · rw [hnone] at hr'
    cases hr'
  · simp only [ReleasesUnsent, hrec] at hs
    have hu : unsentClaim s.queue.outbox r = true := hs.1 i List.mem_cons_self r hr
    simp only [step, stepStartup, hrec, Option.some.injEq] at hst
    subst hst
    refine ⟨hu, fun message hm => hlog.not_reachedSender ?_, hs.2⟩
    simp only [unsentClaim, Bool.and_eq_true, Option.isNone_iff_eq_none] at hu
    simpa [MessageMap.jobOf, hm] using hu.2

/-- An alias goes only with the claim that is being released. -/
theorem alias_of_cleared {s t : State} {e : Event} (hst : step s e = some t) {j : Nat}
    {p : MediaGroupPart} (hp : s.albums.get? j = some p) (hnone : t.albums.get? j = none) :
    ∃ link todo, s.startup = .releasing (link :: todo) ∧ p.linkId = some link := by
  rcases (step_after hst).start with hkept | he
  · rw [hkept.albums j p hp] at hnone
    cases hnone
  · cases e with
    | clearLink =>
        simp only [step, stepStartup] at hst
        split at hst
        · next link todo hrec =>
            obtain rfl := Option.some.inj hst
            refine ⟨link, todo, hrec, ?_⟩
            by_contra hne
            simp [MediaGroups.clearLink, Table.get?_delete, hp, hne] at hnone
        · cases hst
    | crash =>
        obtain rfl := Option.some.inj hst
        rw [State.crash, hp] at hnone
        cases hnone
    | readPreviousStart | noteStart | releaseSelect | forget | serve =>
        simp only [step, stepStartup] at hst
        split at hst <;> cases hst
        all_goals
          rw [hp] at hnone
          cases hnone
    | _ => cases he

/-- **No message from MAX is stranded.**  In every run in which no crash finds a
claim without a job that is older than the recorded start, every start that
completes leaves each claim with its job or its Telegram message.  And in every
run whatsoever, a mapping row that is lost is a released claim whose message had
reached no sender, and an alias that is lost is one of the claim being released. -/
theorem no_message_stranded (s t : State) :
    (Run.Reaches system (fun s e => crashesInTime s e = true) s →
      step s .serve = some t → ∀ i r, t.map.get? i = some r → r.direction = .maxToTg →
        delivered r = true ∨ (jobOf t.queue.outbox r).isSome = true) ∧
    ∀ e, Run.Reaches system Run.anyStep s → step s e = some t →
      (∀ i r, s.map.get? i = some r → t.map.get? i = none → Released s t i r) ∧
      ∀ j p, s.albums.get? j = some p → t.albums.get? j = none →
        ∃ link todo, s.startup = .releasing (link :: todo) ∧ p.linkId = some link := by
  constructor
  · intro hs hst i r hr hdir
    have hbound : Bounded s := hs.invariant (fun i r hr => by simp [system] at hr)
      fun _ _ _ hinv hok hst => hinv.step hok hst
    exact hbound.serve hst hr hdir
  · intro e hs hst
    have hunsent := releasesUnsent_of_reaches hs
    exact ⟨fun i r hr hnone =>
        released_of_forgotten hunsent (queueLogged_of_reaches hs) hst hr hnone,
      fun j p hp hnone => alias_of_cleared hst hp hnone⟩

/-! ## two runs -/

/-- A start from nothing left over, up to the service. -/
def startUp : List Event :=
  [.queue .requeueSelect, .queue .started, .readPreviousStart, .noteStart, .releaseSelect]

/-- One message arrives and is claimed; the process dies before its job is written. -/
def claimAndCrash : List Event :=
  [.serve, .arrive ⟨"bridge", 1, 5⟩ ⟨1, 7, false, 2⟩, .check 1 true, .claim 1 9 none,
    .expectPart 1, .crash, .queue (.clock 1000)]

/-- The next start releases the claim with its alias. -/
theorem no_message_stranded_released :
    ∃ s t, Run.Reaches system (fun s e => crashesInTime s e = true) s ∧
      step s .serve = some t ∧ (s.map.next = 2 ∧ s.map.rows = [] ∧ s.albums.rows = []) ∧
      ∀ i r, t.map.get? i = some r → r.direction = .maxToTg →
        delivered r = true ∨ (jobOf t.queue.outbox r).isSome = true := by
  obtain ⟨s, hs, hfinal⟩ := Run.Reaches.exists_of_play system crashesInTime
    (startUp ++ claimAndCrash ++ startUp ++ [.clearLink, .forget])
    (fun s => (step s .serve).isSome && s.map.next == 2 && s.map.rows.isEmpty &&
      s.albums.rows.isEmpty) rfl
  simp only [Bool.and_eq_true, beq_iff_eq, List.isEmpty_iff] at hfinal
  obtain ⟨t, ht⟩ := Option.isSome_iff_exists.mp hfinal.1.1.1
  exact ⟨s, t, hs, ht, ⟨hfinal.1.1.2, hfinal.1.2, hfinal.2⟩,
    (no_message_stranded s t).1 hs ht⟩

/-- The start after the crash dies too, with `process_started_at` overwritten
and the claim not released yet: the start after that looks for younger claims
only, and the message is stranded. -/
theorem not_no_message_stranded :
    ¬ ∀ s t, Run.Reaches system Run.anyStep s → step s .serve = some t →
      ∀ i r, t.map.get? i = some r → r.direction = .maxToTg →
        delivered r = true ∨ (jobOf t.queue.outbox r).isSome = true := by
  intro hall
  obtain ⟨s, hs, hfinal⟩ := Run.Reaches.exists_of_play system (fun _ _ => true)
    (startUp ++ claimAndCrash ++ startUp ++ [.crash] ++ startUp)
    (fun s => (step s .serve).any fun t => (t.map.get? 1).any fun r =>
      r.direction == .maxToTg && !delivered r && (jobOf t.queue.outbox r).isNone) rfl
  obtain ⟨t, ht, hrow⟩ := Option.any_eq_true _ _ |>.mp hfinal
  obtain ⟨r, hr, hbad⟩ := Option.any_eq_true _ _ |>.mp hrow
  simp only [Bool.and_eq_true, beq_iff_eq, Bool.not_eq_true', Option.isNone_iff_eq_none] at hbad
  have hgood := hall s t (hs.mono fun _ _ _ => trivial) ht 1 r hr hbad.1.1
  simp [hbad.1.2, hbad.2] at hgood

end Telemax.Bridge
