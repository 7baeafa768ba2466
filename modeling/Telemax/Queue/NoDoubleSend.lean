import Telemax.Queue.Invariants

/-!
# Telemax.Queue.NoDoubleSend

Two attempts on one job of a creating kind must not both send, unless the first
was settled as a retry.  The code has nothing that makes it so: the writes of an
attempt name the job and not the claim, so an attempt that was slow enough to
lose its lease still marks, sends and settles (`not_sends_once`).

`SendGuard` is what such writes would have to find: no later claim on the job,
and no claim or requeue of a job whose send has begun.  In a run that meets it a
send stays with the attempt that began it, until it is settled as a retry or the
job is terminal (`SendsHeld`), and so no job is sent twice (`sends_once`).
-/

namespace Telemax.Queue

open Outbox

/-- Read from the newest mark back: whenever an attempt fired on job `j`, every
other attempt that had fired on it was settled as a retry in between. -/
def SendsOnce (j : Nat) (log : List Mark) : Prop :=
  ∀ later between before a b ba bb da db,
    log = later ++ .fired j b bb db :: (between ++ .fired j a ba da :: before) → a ≠ b →
      .retried j a ∈ between

/-- The attempts that fired on job `j` and were not settled as a retry since. -/
def openSends (j : Nat) : List Mark → List Nat
  | [] => []
  | .fired i a _ _ :: log => if i = j then a :: openSends j log else openSends j log
  | .retried i a :: log =>
      if i = j then (openSends j log).filter (· ≠ a) else openSends j log
  | .entered _ _ _ _ :: log => openSends j log

/-- A send that no retry followed is open. -/
theorem mem_openSends {j a : Nat} {ba : String} {da : Direction} {between before : List Mark}
    (h : .retried j a ∉ between) :
    a ∈ openSends j (between ++ .fired j a ba da :: before) := by
  induction between with
  | nil => simp [openSends]
  | cons m between ih =>
      obtain ⟨hm, hrest⟩ := not_or.mp (List.mem_cons.not.mp h)
      cases m with
      | entered => exact ih hrest
      | fired i b =>
          simp only [List.cons_append, openSends]
          split
          · exact List.mem_cons_of_mem _ (ih hrest)
          · exact ih hrest
      | retried i b =>
          simp only [List.cons_append, openSends]
          split
          · next hi =>
              have hne : a ≠ b := fun hab => hm (by rw [hi, hab])
              exact List.mem_filter.mpr ⟨ih hrest, by simpa using hne⟩
          · exact ih hrest

/-- An open send is in the log. -/
theorem fired_of_mem_openSends {j a : Nat} {log : List Mark} (h : a ∈ openSends j log) :
    ∃ b d, .fired j a b d ∈ log := by
  induction log with
  | nil => cases h
  | cons m log ih =>
      have hlater : (∃ b d, .fired j a b d ∈ log) → ∃ b d, .fired j a b d ∈ m :: log := by
        rintro ⟨b, d, hmem⟩
        exact ⟨b, d, List.mem_cons_of_mem _ hmem⟩
      cases m with
      | entered => exact hlater (ih h)
      | fired i b bridge direction =>
          simp only [openSends] at h
          split at h
          · next hi =>
              subst hi
              rcases List.mem_cons.mp h with rfl | hmem
              · exact ⟨bridge, direction, List.mem_cons_self⟩
              · exact hlater (ih hmem)
          · exact hlater (ih h)
      | retried i b =>
          simp only [openSends] at h
          split at h
          · exact hlater (ih (List.mem_filter.mp h).1)
          · exact hlater (ih h)

/-- One more mark keeps the property, if a send finds no open send of another attempt. -/
theorem SendsOnce.cons {j : Nat} {log : List Mark} {m : Mark} (h : SendsOnce j log)
    (hm : ∀ b bb db, m = .fired j b bb db → ∀ a ∈ openSends j log, a = b) :
    SendsOnce j (m :: log) := by
  intro later between before a b ba bb da db hlog hne
  cases later with
  | cons m' later =>
      rw [List.cons_append, List.cons.injEq] at hlog
      exact h later between before a b ba bb da db hlog.2 hne
  | nil =>
      rw [List.nil_append, List.cons.injEq] at hlog
      obtain ⟨rfl, rfl⟩ := hlog
      by_contra hnot
      exact hne (hm b bb db rfl a (mem_openSends hnot))

theorem SendsOnce.append {j : Nat} {marks log : List Mark} (h : SendsOnce j log)
    (hlen : marks.length ≤ 1)
    (hm : ∀ b bb db, .fired j b bb db ∈ marks → ∀ a ∈ openSends j log, a = b) :
    SendsOnce j (marks ++ log) := by
  match marks, hlen with
  | [], _ => exact h
  | [m], _ => exact h.cons fun b bb db hb => hm b bb db (hb ▸ List.mem_cons_self)

/-- A job that no mark names has no send. -/
theorem sendsOnce_of_not_mem {j : Nat} {log : List Mark} (h : ∀ m ∈ log, Mark.job m ≠ j) :
    SendsOnce j log := by
  rintro later between before a b ba bb da db rfl -
  exact absurd rfl (h (.fired j b bb db) (by simp))

/-! ## what a run has to meet -/

/-- Is the last claim of the attempt's job the attempt's own? -/
def State.lastClaim (s : State) (a : Nat) : Bool :=
  (s.attempts.get? a).all fun x => s.latest x.job == some a

/-- What the writes around a send have to find.

* An attempt that marks its send, defers, or is settled as a retry or a deferral
  finds that no later attempt has claimed its job.
* A claim, by either claim function, finds that no send of the job has begun.
* The sweep's requeue finds the job still undelivered and no send begun. -/
def sendGuard (s : State) : Event → Bool
  | .sending a | .wait a => s.lastClaim a
  | .settle a outcome _ =>
      s.lastClaim a || !(s.attempts.get? a).any fun x => x.settledAgain outcome
  | .claim a =>
      (s.attempts.get? a).all fun x =>
        (s.outbox.bySourceKey x.spec.sourceKey).all fun row =>
          !takeable row.2 s.now || !started row.2
  | .drain bridge limit => (s.outbox.due bridge limit s.now).all fun row => !started row.2
  | .reclaimWrite =>
      match s.sweeper with
      | .reclaiming _ ((i, false) :: _) =>
          (s.outbox.get? i).all fun r => r.state.undelivered && !started r
      | _ => true
  | _ => true

/-- A run without an owner's retry in which every write around a send finds that. -/
def Guarded (s : State) (e : Event) : Prop := noRetryNow s e = true ∧ sendGuard s e = true

theorem lastClaim_eq {s : State} {a : Nat} {x : Attempt} (hx : s.attempts.get? a = some x)
    (h : s.lastClaim a = true) : s.latest x.job = some a := by
  simpa [State.lastClaim, hx] using h

/-! ## a send stays with its attempt -/

/-- Who has an open send on a job made the last claim of it, and the job is
terminal or carries the mark of the send. -/
def SendsHeld (s : State) : Prop :=
  ∀ j r a, s.outbox.get? j = some r → isCreating r.kind = true → a ∈ openSends j s.log →
    s.latest j = some a ∧ (r.state.terminal = true ∨ started r = true)

/-- An event that does not write a job for an attempt leaves its open sends alone. -/
theorem openSends_of_notWritten {s t : State} {e : Event} {j : Nat} (h : After s t e)
    (hw : NotWritten s e j) : openSends j t.log = openSends j s.log := by
  rw [h.log]
  cases e with
  | enter a =>
      simp only [marksOf]
      cases s.attempts.get? a <;> rfl
  | sending a =>
      simp only [marksOf]
      cases hx : s.attempts.get? a with
      | none => rfl
      | some x => simp [openSends, hw a x rfl hx]
  | settle a outcome backoff =>
      simp only [marksOf]
      cases hx : s.attempts.get? a with
      | none => rfl
      | some x =>
          simp only [Option.elim_some]
          split
          · simp [openSends, hw a x rfl hx]
          · rfl
  | _ => rfl

/-- A claim finds no open send: the job is undelivered and unmarked. -/
theorem SendsHeld.none_open {s : State} (hs : SendsHeld s) {j a : Nat} {r : OutboxItem}
    (hr : s.outbox.get? j = some r) (hk : isCreating r.kind = true)
    (hstate : r.state.undelivered = true) (hstart : started r = false)
    (ha : a ∈ openSends j s.log) : False := by
  rcases (hs j r a hr hk ha).2 with hterm | hsent
  · simp [OutboxState.terminal, hstate] at hterm
  · simp [hstart] at hsent

theorem undelivered_of_takeable {r : OutboxItem} {stamp : Nat} (h : takeable r stamp = true) :
    r.state.undelivered = true := by
  simp only [takeable, Bool.or_eq_true, Bool.and_eq_true, beq_iff_eq] at h
  rcases h with h | ⟨h, -⟩ <;> rw [h] <;> rfl

/-- **One step**: what a guarded event makes of a job with an open send. -/
theorem SendsHeld.change {s t : State} {e : Event} (hs : SendsHeld s) (hsound : Sound s)
    (h : After s t e) (hok : Guarded s e) {j a : Nat}
    {r r' : OutboxItem} (hr : s.outbox.get? j = some r) (hk : isCreating r.kind = true)
    (hc : RowChange s j r e r' (t.latest j)) (ha : a ∈ openSends j t.log) :
    t.latest j = some a ∧ (r'.state.terminal = true ∨ started r' = true) := by
  obtain ⟨hretry, hguard⟩ := hok
  generalize hl : t.latest j = l at hc
  cases hc with
  | same hw =>
      rw [openSends_of_notWritten h hw] at ha
      exact hs j r a hr hk ha
  | claimed hx hp hkey ht =>
      rw [h.log] at ha
      have hstart : started r = false := by simpa [sendGuard, hx, hkey, ht] using hguard
      exact (hs.none_open hr hk (undelivered_of_takeable ht) hstart ha).elim
  | drained hdue hb =>
      rw [h.log] at ha
      have hpending := (due_pending hdue).2.2
      have hstart : started r = false := by
        simpa using List.all_eq_true.mp hguard _ hdue
      exact (hs.none_open hr hk (by rw [hpending]; rfl) hstart ha).elim
  | @waited b x hx hp hj =>
      -- the attempt that defers has not fired, and nobody else holds the job
      rw [h.log] at ha
      obtain ⟨hlast, -⟩ := hs j r a hr hk ha
      have hown := lastClaim_eq hx hguard
      rw [hj, hlast, Option.some.injEq] at hown
      obtain ⟨bridge, direction, hfired⟩ := fired_of_mem_openSends ha
      obtain ⟨⟨y, hy, -, hmay⟩, -⟩ := hsound.logged _ hfired
      simp only [Mark.attempt, hown, hx, Option.some.injEq] at hy
      rw [← hy, hp] at hmay
      cases hmay
  | @fired b x hx hp hj =>
      have hown := lastClaim_eq hx hguard
      rw [hj] at hown
      simp only [h.log, marksOf, hx, Option.elim_some, List.cons_append, List.nil_append,
        openSends, hj, if_true, List.mem_cons] at ha
      refine ⟨?_, .inr rfl⟩
      rcases ha with rfl | ha
      · exact hown
      · exact (hs j r a hr hk ha).1
  | @settled b backoff x outcome hx hp hj ho =>
      obtain ⟨r₀, hr₀, hfit⟩ := hsound.claimed b x hx (by rw [hp]; rfl)
      rw [hj, hr, Option.some.injEq] at hr₀
      subst hr₀
      cases hagain : x.settledAgain outcome with
      | false =>
          have hlog : openSends j t.log = openSends j s.log := by
            have hno : x.settledRetry outcome = false := by
              cases outcome with
              | delivered => rfl
              | raised error =>
                  simp only [Attempt.settledAgain, Bool.or_eq_false_iff] at hagain
                  exact hagain.1
            simp [h.log, marksOf, hx, hno]
          rw [hlog] at ha
          exact ⟨(hs j r a hr hk ha).1, .inl (Attempt.settleRow_terminal hagain _ _ _)⟩
      | true =>
          have hown : s.latest x.job = some b := by
            simpa [sendGuard, State.lastClaim, hx, hagain] using hguard
          rw [hj] at hown
          -- a creating kind is never deferred, so this is a retry: the send is closed
          have hretried : x.settledRetry outcome = true := by
            cases outcome with
            | delivered => cases hagain
            | raised error =>
                simp only [Attempt.settledAgain, Bool.or_eq_true, beq_iff_eq] at hagain
                rcases hagain with hv | hv
                · simp [Attempt.settledRetry, hv]
                · obtain ⟨delay, rfl⟩ := settle_defer hv
                  exact (Outcome.not_defer_of_creating (hfit.2.2 ▸ hk) ho).elim
          simp only [h.log, marksOf, hx, Option.elim_some, hretried, if_true,
            List.cons_append, List.nil_append, openSends, hj, List.mem_filter] at ha
          obtain ⟨ha, hne⟩ := ha
          obtain ⟨hlast, -⟩ := hs j r a hr hk ha
          rw [hown, Option.some.injEq] at hlast
          simp [hlast] at hne
  | @reclaimed stamp wasStarted rest hsweep =>
      rw [h.log] at ha
      cases wasStarted with
      | true => exact ⟨(hs j r a hr hk ha).1, .inl rfl⟩
      | false =>
          obtain ⟨hstate, hstart⟩ : r.state.undelivered = true ∧ started r = false := by
            simpa [sendGuard, hsweep, hr] using hguard
          exact (hs.none_open hr hk hstate hstart ha).elim
  | expired =>
      rw [h.log] at ha
      exact ⟨(hs j r a hr hk ha).1, .inl rfl⟩
  | @requeued wasStarted rest hm =>
      rw [h.log] at ha
      cases wasStarted with
      | true => exact ⟨(hs j r a hr hk ha).1, .inl rfl⟩
      | false =>
          obtain ⟨-, hrows⟩ := (hsound.booting (by rw [hm]; simp)).2 _ hm
          obtain ⟨r₀, hr₀, hstate, hstart⟩ := hrows j false List.mem_cons_self
          rw [hr, Option.some.injEq] at hr₀
          subst hr₀
          exact (hs.none_open hr hk (by rw [hstate]; rfl) hstart ha).elim
  | @decided index decision read hd =>
      rw [h.log] at ha
      refine ⟨(hs j r a hr hk ha).1, .inl ?_⟩
      cases decision with
      | retryNow => simp [noRetryNow, hd] at hretry
      | resolve | archive => rfl
  | cancelled hu =>
      rw [h.log] at ha
      exact ⟨(hs j r a hr hk ha).1, .inl rfl⟩
  | rewritten hw =>
      rw [openSends_of_notWritten h hw] at ha
      exact hs j r a hr hk ha

/-- The mark of a send comes from `sending()` of an attempt on that job. -/
theorem fired_mem_marksOf {s : State} {e : Event} {j b : Nat} {bridge : String}
    {direction : Direction} (h : .fired j b bridge direction ∈ marksOf s e) :
    e = .sending b ∧ ∃ x, s.attempts.get? b = some x ∧ x.job = j := by
  obtain ⟨x, hx, hj, ha⟩ := mem_marksOf h
  cases e with
  | sending a =>
      obtain rfl : a = b := by simpa [Event.attempt?, Mark.attempt] using ha
      exact ⟨rfl, x, hx, hj⟩
  | enter a =>
      cases hy : s.attempts.get? a <;> simp [marksOf, hy] at h
  | settle a outcome backoff =>
      cases hy : s.attempts.get? a with
      | none => simp [marksOf, hy] at h
      | some y =>
          simp only [marksOf, hy, Option.elim_some] at h
          split at h <;> simp at h
  | _ => cases h

theorem RowBorn.marksOf_eq {s : State} {i : Nat} {e : Event} {r : OutboxItem} {l : Option Nat}
    (h : RowBorn s i e r l) : marksOf s e = [] := by
  cases h <;> rfl

/-! ## every run -/

/-- No job of a creating kind is sent by two attempts without a retry in between. -/
def NoDoubleSend (s : State) : Prop :=
  ∀ j r, s.outbox.get? j = some r → isCreating r.kind = true → SendsOnce j s.log

/-- The step lemma: a guarded event sends no job twice. -/
theorem SendsHeld.step {s t : State} {e : Event} (hsound : Sound s) (hs : SendsHeld s)
    (hok : Guarded s e) (h : After s t e) : SendsHeld t := by
  intro j r' a hr' hk ha
  rcases h.row_from hr' with ⟨r, hr, hc⟩ | ⟨hnone, hborn⟩
  · exact hs.change hsound h hok hr (hc.sameJob.2.2.1 ▸ hk) hc ha
  · have hlog : t.log = s.log := by rw [h.log, hborn.marksOf_eq, List.nil_append]
    obtain ⟨b, d, hfired⟩ := fired_of_mem_openSends (hlog ▸ ha)
    obtain ⟨-, r, hr⟩ := hsound.logged _ hfired
    rw [Mark.job, hnone] at hr
    cases hr

theorem NoDoubleSend.step {s t : State} {e : Event} (hsound : Sound s) (hheld : SendsHeld s)
    (hs : NoDoubleSend s) (hok : Guarded s e) (h : After s t e) : NoDoubleSend t := by
  intro j r' hr' hk
  rw [h.log]
  rcases h.row_from hr' with ⟨r, hr, hc⟩ | ⟨hnone, hborn⟩
  · have hk' : isCreating r.kind = true := hc.sameJob.2.2.1 ▸ hk
    refine (hs j r hr hk').append (marksOf_length s e) fun b bb db hfired a ha => ?_
    obtain ⟨rfl, x, hx, hj⟩ := fired_mem_marksOf hfired
    have hown := lastClaim_eq hx hok.2
    rw [hj, (hheld j r a hr hk' ha).1, Option.some.injEq] at hown
    exact hown
  · rw [hborn.marksOf_eq]
    refine sendsOnce_of_not_mem fun m hm hj => ?_
    obtain ⟨-, r, hr⟩ := hsound.logged m hm
    rw [hj, hnone] at hr
    cases hr

theorem sendsHeld_of_reaches {s : State} (h : Run.Reaches system Guarded s) : SendsHeld s :=
  h.invariant_of (fun _ => sound_of_reaches) (fun j r a hr => by simp [system] at hr)
    fun _ _ _ hsound hheld hok hst => hheld.step hsound hok (step_after hst)

/-- **No double send.**  In every run without an owner's retry in which the
writes around a send find what `sendGuard` asks, no job of a creating kind is
sent by two attempts, unless the first was settled as a retry before the second
sent. -/
theorem sends_once {s : State} (h : Run.Reaches system Guarded s) : NoDoubleSend s :=
  h.invariant_of (fun _ hs => And.intro (sound_of_reaches hs) (sendsHeld_of_reaches hs))
    (fun j r hr => by simp [system] at hr)
    fun _ _ _ hknown hs hok hst => hs.step hknown.1 hknown.2 hok (step_after hst)

/-! ## runs -/

/-- A run that meets the guard: Telegram puts the first attempt off, the second sends. -/
def retriedSend : List Event :=
  [.requeueSelect, .started, .submit someText .direction, .check 1, .claim 1, .enter 1,
   .sending 1, .settle 1 (.raised (.telegram (.retryAfter 1 "wait"))) 0, .clock 1000,
   .drain "bridge" 1, .check 2, .enter 2, .sending 2, .settle 2 (.delivered (some 7)) 0]

/-- The run of `retriedSend` is one of those `sends_once` is about, and it sends
the text twice with the retry in between. -/
theorem sends_once_retriedSend :
    ∃ s, NoDoubleSend s ∧
      s.log = [.fired 1 2 "bridge" .maxToTg, .entered 1 2 "bridge" .maxToTg, .retried 1 1,
        .fired 1 1 "bridge" .maxToTg, .entered 1 1 "bridge" .maxToTg] := by
  obtain ⟨s, hs, hlog⟩ := Run.Reaches.exists_of_play system
    (fun s e => noRetryNow s e && sendGuard s e) retriedSend
    (fun s => s.log == [.fired 1 2 "bridge" .maxToTg, .entered 1 2 "bridge" .maxToTg,
      .retried 1 1, .fired 1 1 "bridge" .maxToTg, .entered 1 1 "bridge" .maxToTg]) rfl
  exact ⟨s, sends_once (hs.mono fun _ _ h => Bool.and_eq_true_iff.mp h), by simpa using hlog⟩

/-- The inline attempt is still preparing when its lease ends; the sweep gives the
job back and the worker sends it; then the inline attempt sends it as well. -/
def slowPreparation : List Event :=
  [.requeueSelect, .started, .submit someText .direction, .check 1, .claim 1, .enter 1,
   .clock (defaultLeaseMs + 1), .reclaimSelect, .reclaimWrite, .drain "bridge" 1, .check 2,
   .enter 2, .sending 2, .sending 1]

/-- The code itself has no such guard: in the run of `slowPreparation`, without any
decision of the owner, two attempts send one text. -/
theorem not_sends_once :
    ¬ ∀ s, Run.Reaches system (fun s e => noRetryNow s e = true) s → NoDoubleSend s := by
  intro hclaim
  obtain ⟨s, hs, hlast⟩ := Run.Reaches.exists_of_play system noRetryNow slowPreparation
    (fun s => (s.outbox.get? 1).any (fun r => isCreating r.kind) &&
      s.log.take 2 == [.fired 1 1 "bridge" .maxToTg, .fired 1 2 "bridge" .maxToTg]) rfl
  simp only [Bool.and_eq_true, Option.any_eq_true, beq_iff_eq] at hlast
  obtain ⟨⟨r, hr, hk⟩, hlog⟩ := hlast
  have hsplit : s.log = [] ++ .fired 1 1 "bridge" .maxToTg ::
      ([] ++ .fired 1 2 "bridge" .maxToTg :: s.log.drop 2) := by
    rw [List.nil_append, List.nil_append, ← List.take_append_drop 2 s.log, hlog]
    simp
  have hretried := hclaim s hs 1 r hr hk _ _ _ _ _ _ _ _ _ hsplit (by decide)
  cases hretried

end Telemax.Queue
