import Telemax.Onboarding.Turns

/-!
# Telemax.Onboarding.NotLost

The question the guardian is waiting on is not lost: every careful run keeps it,
and some run that is not careful loses it.
-/

namespace Telemax.Onboarding

open Script

variable {cfg : Config} {file : Option OnboardingRecord}

/-- `submit` from where the gateway has taken the text, or not. -/
private def taken (text : Bool) : Prog Next :=
  (if text then do
    sync (.update { step := some .validating })
    await (.show .validating)
  else return ()) >>= fun _ => return .ended

/-- `submit` where a code or a password is waited for. -/
private def toGateway (text : String) (gateway : Option Nat) : Prog Next :=
  match gateway with
  | none => await (.show (.loginFailed "Попытка входа прервалась.")) >>= fun _ => return .ended
  | some gateway => sync (.submit gateway text) >>= taken

theorem submit_answer (cfg : Config) (text : String) :
    ∃ load, (Action.submit text).program cfg = .ask (.sync .load) load ∧
      ∀ r : OnboardingRecord, r.step = .waitingForCode ∨ r.step = .waitingFor2fa →
        load r = .ask (.sync .gateway) (toGateway text) := by
  refine ⟨_, rfl, fun r hstep => ?_⟩
  have hphone : r.step ≠ .waitingForPhone := by
    rcases hstep with h | h <;> rw [h] <;> exact nofun
  have hwaits : (r.step = .waitingForCode || r.step = .waitingFor2fa) = true := by
    simpa using hstep
  change Script.bind (if r.step = .waitingForPhone then submitPhone cfg text else
    if r.step = .waitingForCode || r.step = .waitingFor2fa then _ else _) _ = _
  rw [if_neg hphone, if_pos hwaits]
  refine congrArg (Script.ask (Op.sync .gateway)) (funext fun gateway => ?_)
  cases gateway <;> rfl

namespace State

variable {s s' : State}

/-- Nobody has begun anything. -/
theorem kept_start : (sys cfg file).start.Kept := by
  have hnobody {n : Nat} {t : Task} (ht : (sys cfg file).start.tasks[n]? = some t) : False := by
    cases ht
  refine ⟨fun n t ht => (hnobody ht).elim, fun m n t u g g' ht => (hnobody ht).elim,
    fun n t g g' ht => (hnobody ht).elim, fun n t q ht => (hnobody ht).elim,
    fun n t g ht => (hnobody ht).elim, fun n t g ht => (hnobody ht).elim,
    fun n hn => ?_, fun n g q hq => ?_, ⟨rfl, List.pairwise_singleton ..⟩, rfl⟩
  · cases hn
  · obtain ⟨t, ht, -⟩ := hq.task
    exact (hnobody ht).elim

theorem settle_sync {n : Nat} {x : Sync} {k : x.Answer → Prog Next} {r : x.Answer}
    (h : s.perform x = (r, s')) :
    settle n (.ask (.sync x) k) s = settle n (k r) (s'.goes n (k r) fun b => b.next (.sync x) r) := by
  simp only [settle, h]

/-- What the owner writes where the stored step is the step of a prompt that waits. -/
theorem settle_submit (cfg : Config) {n : Nat} {t : Task} {r : OnboardingRecord} {g : Nat} (text : String)
    (ht : s.tasks[n]? = some t) (hcached : s.stores.cached 0 = some r)
    (hstep : r.step = .waitingForCode ∨ r.step = .waitingFor2fa) (hgateway : s.gateway = some g)
    (hpending : (s.gateways g).pending = true) (hopen : (s.gateways g).future = some .open) :
    let s' := settle n ((Action.submit text).program cfg) s
    s'.handed = (g, text) :: s.handed ∧ s'.made = s.made ∧
      ∃ u a k, s'.tasks[n]? = some u ∧ u.prog = .ask (.await a) k := by
  intro s'
  obtain ⟨load, hprogram, hload⟩ := submit_answer cfg text
  have hread : s.stores.load 0 = (r, s.stores) := by
    simp only [Stores.load, hcached]
  have hperform : s.perform .load = (r, s) := by
    simp only [perform, hread]
  have hsubmit : ((s.gateways g).submit text).1 = true := by
    simp [Gateway.submit, hpending, hopen]
  -- The record, the gateway, the text, and the next step.
  let s₁ := s.goes n (.ask (.sync .gateway) (toGateway text)) id
  let s₂ := s₁.goes n (toGateway text (some g)) id
  have hgo : s₁.perform .gateway = (some g, s₁) := congrArg (·, s₁) hgateway
  have htake : s₂.perform (.submit g text) = (true, (s₂.perform (.submit g text)).2) :=
    Prod.ext hsubmit rfl
  let s₃ := (s₂.perform (.submit g text)).2.goes n (taken true) id
  have hs' : s' = (s₃.update { step := some .validating }).goes n
      (await (.show .validating) >>= fun _ => return .ended) id := by
    calc s' = settle n (.ask (.sync .load) load) s := by rw [← hprogram]
      _ = settle n (.ask (.sync .gateway) (toGateway text)) s₁ := by
          rw [settle_sync hperform, hload r hstep]
          rfl
      _ = settle n (toGateway text (some g)) s₂ := settle_sync hgo
      _ = settle n (taken true) s₃ := settle_sync htake
  have hhanded : s₃.handed = (g, text) :: s.handed := by
    change (if ((s.gateways g).submit text).1 then (g, text) :: s.handed else s.handed) = _
    rw [hsubmit, if_pos rfl]
  have ht₃ : s₃.tasks[n]? = some { t with prog := taken true } :=
    getElem_goes_self (s := (s₂.perform (.submit g text)).2)
      (getElem_goes_self (getElem_goes_self ht _ id) _ id) _ id
  rw [hs']
  exact ⟨hhanded, rfl, _, _, _,
    getElem_goes_self (s := s₃.update { step := some .validating }) ht₃ _ id, rfl⟩

theorem handed_of_pending {r : OnboardingRecord} {g : Nat} {question : Question} (text : String)
    (hcached : s.stores.cached 0 = some r) (hstep : r.step = question.step)
    (hgateway : s.gateway = some g) (hpending : (s.gateways g).pending = true)
    (hopen : (s.gateways g).future = some .open)
    (hst : s.step cfg (.call (.submit text)) = some s') :
    s'.handed = (g, text) :: s.handed ∧ s'.made = s.made := by
  obtain rfl := Option.some.inj hst
  have hstep' : r.step = .waitingForCode ∨ r.step = .waitingFor2fa := by
    cases question
    · exact .inl hstep
    · exact .inr hstep
  have ht : (s.begins cfg (.submit text)).tasks[s.tasks.length]? =
      some { kind := .action, prog := (Action.submit text).program cfg } :=
    List.getElem?_concat_length
  obtain ⟨hhanded, hmade, u, a, k, hu, hprog⟩ :=
    settle_submit cfg text (getElem_goes_self ht ((Action.submit text).program cfg) id)
      hcached hstep' hgateway hpending hopen
  -- It waits for the screen, and no round has ended.
  have hrests : (s.begins cfg (.submit text)).runs s.tasks.length
      ((Action.submit text).program cfg) id =
        settle s.tasks.length ((Action.submit text).program cfg)
          ((s.begins cfg (.submit text)).goes s.tasks.length
            ((Action.submit text).program cfg) id) := by
    simp only [runs, restart, hu, Option.map_some, hprog]
  rw [hrests]
  exact ⟨hhanded, hmade⟩

/-- What is kept is what the claim on the owner's question says. -/
theorem Kept.held (h : s.Kept) : s.Held cfg := by
  refine ⟨fun n g question hu => (h.unanswered n g question hu).2.2.1,
    fun n g question text s' hu hst => ?_, h.connected, h.stages.2⟩
  obtain ⟨hgateway, hpending, -, r, hcached, hstep⟩ := h.unanswered n g question hu
  exact handed_of_pending text hcached hstep hgateway hpending hu.future hst

end State

/-- **The question that is waited on is not lost, and the stage does not go back**, in every state
of a careful run, whatever the file was. -/
theorem question_held {s : State}
    (h : Run.Reaches (sys cfg file) (fun s e => s.careful cfg e = true) s) : s.Held cfg := by
  have hkept : s.Kept := by
    induction h with
    | start => exact State.kept_start
    | step _ hcareful hst ih => exact ih.step hcareful hst
  exact hkept.held

/-! ### a login up to its prompt -/

private def moscow : Config where
  normalizePhone text := if text.startsWith "+" then some text else none
  maskPhone := id
  isKnownTimezone _ := true
  writes := false

private def prompted : List Event :=
  [.surroundings (some "Europe/Moscow") none, .call .begin, .answer 0 .done,
    .call (.submit "+7900"), .answer 1 .done, .answer 2 .done,
    .answer 2 (.connecting (.prompt .code none)), .answer 2 .done]

/-- The code is handed over, and the bridge comes up. -/
theorem question_held_login : ∃ s : State, s.Held moscow ∧ s.handed = [(0, "1234")] ∧
    s.stores.read.stage = .bridgeRunning := by
  obtain ⟨s, hs, hfinal⟩ := Run.Reaches.exists_of_play (sys moscow none)
    (fun s e => s.careful moscow e)
    (prompted ++ [.call (.submit "1234"), .answer 3 .done, .answer 2 .done,
      .answer 2 (.connecting .returns), .answer 2 .done, .answer 2 .done, .answer 2 .done,
      .answer 2 .done, .answer 2 .done])
    (fun s => decide (s.handed = [(0, "1234")] ∧ s.stores.read.stage = .bridgeRunning))
    (by decide +kernel)
  exact ⟨s, question_held hs, of_decide_eq_true hfinal⟩

/-- A notification is sent while the code is waited for, and the code is taken for a phone. -/
theorem question_lost : ∃ s : State, Run.Reaches (sys moscow none) Run.anyStep s ∧ ¬s.Held moscow := by
  obtain ⟨s, hs, hfinal⟩ := Run.Reaches.exists_of_play (sys moscow none) (fun _ _ => true)
    (prompted ++ [.unrelated 0 { screenRevision := some 4 }])
    (fun s => decide (s.stores.read.step = .waitingForPhone ∧ (s.gateways 0).future = some .open) &&
      (s.tasks[2]?).any fun t => !t.isOver && t.kind = .attempt 0 && t.book.asks = some .code)
    (by decide +kernel)
  refine ⟨s, hs.mono fun _ _ _ => trivial, fun held => ?_⟩
  simp only [Bool.and_eq_true, decide_eq_true_eq, Option.any_eq_true] at hfinal
  obtain ⟨⟨hstep, hopen⟩, t, ht, ⟨hover, hkind⟩, hasks⟩ := hfinal
  have hunanswered : s.Unanswered 2 0 .code :=
    ⟨⟨t, ht, by simpa using hover, hkind, hasks⟩, hopen⟩
  exact absurd (hstep.symm.trans (held.step 2 0 .code hunanswered)) nofun

end Telemax.Onboarding
