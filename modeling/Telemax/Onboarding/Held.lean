import Mathlib.Data.Option.Basic
import Telemax.Onboarding.Protocol

/-!
# Telemax.Onboarding.Held

One login at a time, its gateway the flow's, its question the stored step: what
holds between any two things that are done, in a careful run.
-/

namespace Telemax.Onboarding

open Script

/-- A cancellation that has been asked for has come. -/
def Task.Fresh (t : Task) : Prop := t.kind ≠ .action → t.cancelled = true → t.book.cut = true

theorem Task.inside_eq_some {t : Task} {gateway : Nat} :
    t.inside = some gateway ↔ t.isOver = false ∧ t.book.inside = some gateway := by
  unfold Task.inside
  split
  · next hover => simp [hover]
  · next hover => simp [hover]

namespace State

variable {cfg : Config} {s : State} {n : Nat} {t : Task}

structure Kept (s : State) : Prop where
  obeys : ∀ (n : Nat) (t : Task), s.tasks[n]? = some t →
    Obeys (protocol t.kind) t.book t.prog (Ends t.kind)
  single : ∀ (m n : Nat) (t u : Task) (g g' : Nat), s.tasks[m]? = some t → s.tasks[n]? = some u →
    t.inside = some g → u.inside = some g' → m = n
  own : ∀ (n : Nat) (t : Task) (g g' : Nat), s.tasks[n]? = some t → t.kind = .attempt g →
    t.book.inside = some g' → g' = g
  asking : ∀ (n : Nat) (t : Task) (question : Question), s.tasks[n]? = some t →
    t.kind ≠ .action → t.book.asks = some question → t.book.inside.isSome = true
  /-- The gateway of the login, unless it was abandoned. -/
  holder : ∀ (n : Nat) (t : Task) (g : Nat), s.tasks[n]? = some t → t.inside = some g →
    s.gateway = some g ∨
      s.gateway = none ∧ t.kind ≠ .action ∧ (t.cancelled = true ∨ t.book.cut = true)
  mine : ∀ (n : Nat) (t : Task) (g : Nat), s.tasks[n]? = some t → t.kind ≠ .action →
    t.inside = some g → t.cancelled = false → t.book.cut = false → s.attempt = some n
  attempts : ∀ n, s.attempt = some n → ∃ t, s.tasks[n]? = some t ∧ t.kind ≠ .action
  unanswered : ∀ (n g : Nat) (question : Question), s.Unanswered n g question →
    s.gateway = some g ∧ (s.gateways g).pending = true ∧ s.stores.read.step = question.step ∧
      ∃ r, s.stores.cached 0 = some r ∧ r.step = question.step
  stages : s.stages.head? = some s.stores.read.stage ∧ s.stages.Pairwise (·.rank ≥ ·.rank)
  connected : s.disconnected = []

/-! ## looking at the state -/

theorem Unanswered.any {g : Nat} {question : Question} (h : s.Unanswered n g question) :
    s.unanswered = true := by
  obtain ⟨t, ht, hover, hkind, hasks⟩ := h.task
  refine List.any_eq_true.mpr ⟨t, List.mem_of_getElem? ht, ?_⟩
  simp [hover, hasks, hkind, h.future]

theorem not_unanswered (h : s.unanswered = false) {g : Nat} {question : Question} :
    ¬s.Unanswered n g question := fun hu => absurd (hu.any.symm.trans h) nofun

theorem not_inside (h : s.loggingIn = false) (ht : s.tasks[n]? = some t) : t.inside = none := by
  have hnone := List.any_eq_false.mp h t (List.mem_of_getElem? ht)
  simpa using hnone

theorem getElem_goes (s : State) (n : Nat) (x : Prog Next) (f : Book → Book) (m : Nat) :
    (s.goes n x f).tasks[m]? =
      (s.tasks[m]?).map fun t => if n = m then { t with prog := x, book := f t.book } else t :=
  List.getElem?_modify _ _ _ _

/-- What a task has become, or the task it was. -/
theorem goes_cases {x : Prog Next} {f : Book → Book} {m : Nat} {u : Task}
    (ht : s.tasks[n]? = some t) (hu : (s.goes n x f).tasks[m]? = some u) :
    m = n ∧ u = { t with prog := x, book := f t.book } ∨ m ≠ n ∧ s.tasks[m]? = some u := by
  rw [getElem_goes] at hu
  obtain ⟨v, hv, rfl⟩ := Option.map_eq_some_iff.mp hu
  by_cases hm : n = m
  · subst hm
    obtain rfl := Option.some.inj (ht.symm.trans hv)
    exact .inl ⟨rfl, if_pos rfl⟩
  · rw [if_neg hm]
    exact .inr ⟨Ne.symm hm, hv⟩

namespace Kept

/-- An unanswered prompt is the prompt of the login that is inside. -/
theorem asker (h : s.Kept) {g : Nat} {question : Question} (hu : s.Unanswered n g question) :
    ∃ t, s.tasks[n]? = some t ∧ t.kind = .attempt g ∧ t.inside = some g ∧
      t.book.asks = some question := by
  obtain ⟨t, ht, hover, hkind, hasks⟩ := hu.task
  have hinside := h.asking n t question ht (by rw [hkind]; exact nofun) hasks
  obtain ⟨g', hg'⟩ := Option.isSome_iff_exists.mp hinside
  obtain rfl := h.own n t g g' ht hkind hg'
  exact ⟨t, ht, hkind, Task.inside_eq_some.mpr ⟨hover, hg'⟩, hasks⟩

/-- The stages, with one that is not before the last. -/
theorem pushed (h : s.Kept) {stage : Stage} (hrank : s.stores.read.stage.rank ≤ stage.rank) :
    (stage :: s.stages).Pairwise (·.rank ≥ ·.rank) := by
  obtain ⟨hhead, hsorted⟩ := h.stages
  refine List.pairwise_cons.mpr ⟨fun older hmem => ?_, hsorted⟩
  cases hstages : s.stages with
  | nil => simp [hstages] at hmem
  | cons last rest =>
      rw [hstages] at hhead hsorted hmem
      obtain rfl := Option.some.inj hhead
      rcases List.mem_cons.mp hmem with rfl | hrest
      · exact hrank
      · exact Nat.le_trans ((List.pairwise_cons.mp hsorted).1 older hrest) hrank

/-- **A task goes on**, and is inside of nothing that it was not inside of. -/
theorem went (h : s.Kept) (ht : s.tasks[n]? = some t) {s' : State} {x : Prog Next}
    {f : Book → Book} (htasks : s'.tasks = (s.goes n x f).tasks)
    (hgateway : s'.gateway = s.gateway) (hattempt : s'.attempt = s.attempt)
    (hobeys : Obeys (protocol t.kind) (f t.book) x (Ends t.kind))
    (hinside : (f t.book).inside = t.book.inside ∧ (t.isOver = false ∨ t.book.inside = none) ∨
      (f t.book).inside = none)
    (hasks : t.kind ≠ .action → ∀ question, (f t.book).asks = some question →
      (f t.book).inside.isSome = true)
    (hcut : (f t.book).cut = t.book.cut ∨ (f t.book).cut = true)
    (hunanswered : ∀ (n g : Nat) (question : Question), s'.Unanswered n g question →
      s'.gateway = some g ∧ (s'.gateways g).pending = true ∧ s'.stores.read.step = question.step ∧
        ∃ r, s'.stores.cached 0 = some r ∧ r.step = question.step)
    (hstages : s'.stages.head? = some s'.stores.read.stage ∧ s'.stages.Pairwise (·.rank ≥ ·.rank))
    (hconnected : s'.disconnected = []) : s'.Kept := by
  let t' : Task := { t with prog := x, book := f t.book }
  have hwas {g : Nat} (hg : t'.inside = some g) :
      t.inside = some g ∧ t'.book.inside = t.book.inside := by
    obtain ⟨-, hg⟩ := Task.inside_eq_some.mp hg
    rcases hinside with ⟨hsame, hlive⟩ | hnone
    · have hg' : t.book.inside = some g := hsame.symm.trans hg
      rcases hlive with hlive | hnone
      · exact ⟨Task.inside_eq_some.mpr ⟨hlive, hg'⟩, hsame⟩
      · exact absurd (hnone.symm.trans hg') nofun
    · exact absurd (hnone.symm.trans hg) nofun
  have hcases {m : Nat} {u : Task} (hu : s'.tasks[m]? = some u) :
      m = n ∧ u = t' ∨ m ≠ n ∧ s.tasks[m]? = some u := goes_cases ht (htasks ▸ hu)
  have hback {m : Nat} {u : Task} {g : Nat} (hu : s'.tasks[m]? = some u)
      (hg : u.inside = some g) : ∃ v, s.tasks[m]? = some v ∧ v.inside = some g := by
    rcases hcases hu with ⟨rfl, rfl⟩ | ⟨-, hu⟩
    · exact ⟨t, ht, (hwas hg).1⟩
    · exact ⟨u, hu, hg⟩
  refine ⟨fun m u hu => ?_, fun m m' u u' g g' hu hu' hg hg' => ?_, fun m u g g' hu hk hg => ?_,
    fun m u q hu hk hq => ?_, fun m u g hu hg => ?_, fun m u g hu hk hg hc hb => ?_,
    fun m hm => ?_, hunanswered, hstages, hconnected⟩
  · rcases hcases hu with ⟨rfl, rfl⟩ | ⟨-, hu⟩
    · exact hobeys
    · exact h.obeys m u hu
  · obtain ⟨v, hv, hvg⟩ := hback hu hg
    obtain ⟨v', hv', hvg'⟩ := hback hu' hg'
    exact h.single m m' v v' g g' hv hv' hvg hvg'
  · rcases hcases hu with ⟨rfl, rfl⟩ | ⟨-, hu⟩
    · rcases hinside with ⟨hsame, -⟩ | hnone
      · exact h.own m t g g' ht hk (hsame.symm.trans hg)
      · exact absurd (hnone.symm.trans hg) nofun
    · exact h.own m u g g' hu hk hg
  · rcases hcases hu with ⟨rfl, rfl⟩ | ⟨-, hu⟩
    · exact hasks hk q hq
    · exact h.asking m u q hu hk hq
  · rw [hgateway]
    rcases hcases hu with ⟨rfl, rfl⟩ | ⟨-, hu⟩
    · refine (h.holder m t g ht (hwas hg).1).imp_right fun ⟨hnone, hk, hc⟩ => ⟨hnone, hk, ?_⟩
      exact hc.imp_right fun hb => hcut.elim (fun hsame => hsame.trans hb) id
    · exact h.holder m u g hu hg
  · rw [hattempt]
    rcases hcases hu with ⟨rfl, rfl⟩ | ⟨-, hu⟩
    · refine h.mine m t g ht hk (hwas hg).1 hc ?_
      rcases hcut with hsame | htrue
      · exact hsame.symm.trans hb
      · exact absurd (htrue.symm.trans hb) nofun
    · exact h.mine m u g hu hk hg hc hb
  · rw [hattempt] at hm
    obtain ⟨u, hu, hk⟩ := h.attempts m hm
    rw [htasks, getElem_goes]
    by_cases hmn : n = m
    · subst hmn
      obtain rfl := Option.some.inj (ht.symm.trans hu)
      exact ⟨t', by rw [ht, Option.map_some, if_pos rfl], hk⟩
    · exact ⟨u, by rw [hu, Option.map_some, if_neg hmn], hk⟩

/-- A task that is asked nothing new. -/
theorem goes (h : s.Kept) (ht : s.tasks[n]? = some t) {x : Prog Next} {f : Book → Book}
    (hobeys : Obeys (protocol t.kind) (f t.book) x (Ends t.kind))
    (hinside : (f t.book).inside = t.book.inside ∧ (t.isOver = false ∨ t.book.inside = none) ∨
      (f t.book).inside = none ∧ (t.kind = .action ∨ (f t.book).asks = none))
    (hasks : (f t.book).asks = t.book.asks ∧ t.isOver = false ∨ (f t.book).asks = none)
    (hcut : (f t.book).cut = t.book.cut ∨ (f t.book).cut = true) : (s.goes n x f).Kept := by
  refine h.went ht rfl rfl rfl hobeys (hinside.imp_right (·.1)) (fun hk q hq => ?_) hcut
    (fun m g q hq => ?_) h.stages h.connected
  · rcases hasks with ⟨hsame, -⟩ | hnone
    · rcases hinside with ⟨hin, -⟩ | ⟨-, haction | hnone⟩
      · exact (congrArg Option.isSome hin).trans (h.asking n t q ht hk (hsame.symm.trans hq))
      · exact absurd haction hk
      · exact absurd (hnone.symm.trans hq) nofun
    · exact absurd (hnone.symm.trans hq) nofun
  · obtain ⟨u, hu, hover, hk, hasked⟩ := hq.task
    refine h.unanswered m g q ⟨?_, hq.future⟩
    rcases goes_cases ht hu with ⟨rfl, rfl⟩ | ⟨-, hu⟩
    · rcases hasks with ⟨hsame, hlive⟩ | hnone
      · exact ⟨t, ht, hlive, hk, hsame.symm.trans hasked⟩
      · exact absurd (hnone.symm.trans hasked) nofun
    · exact ⟨u, hu, hover, hk, hasked⟩

/-! ## what is done without an await -/

/-- Nothing changes but what has been read from the file, and what is not looked at. -/
theorem looked (h : s.Kept) {s' : State} (htasks : s'.tasks = s.tasks)
    (hgateway : s'.gateway = s.gateway) (hattempt : s'.attempt = s.attempt)
    (hgateways : s'.gateways = s.gateways) (hread : s'.stores.read = s.stores.read)
    (hcached : ∀ r, s.stores.cached 0 = some r → s'.stores.cached 0 = some r)
    (hstages : s'.stages = s.stages) (hdisconnected : s'.disconnected = s.disconnected) :
    s'.Kept := by
  refine ⟨?_, ?_, ?_, ?_, ?_, ?_, ?_, fun m g q hq => ?_, ?_, hdisconnected.trans h.connected⟩
  · exact htasks ▸ h.obeys
  · exact htasks ▸ h.single
  · exact htasks ▸ h.own
  · exact htasks ▸ h.asking
  · exact htasks ▸ hgateway ▸ h.holder
  · exact htasks ▸ hattempt ▸ h.mine
  · exact htasks ▸ hattempt ▸ h.attempts
  · obtain ⟨hg, hp, hs, r, hr, hstep⟩ := h.unanswered m g q ⟨htasks ▸ hq.task, hgateways ▸ hq.future⟩
    exact ⟨hgateway.trans hg, hgateways ▸ hp, hread ▸ hs, r, hcached r hr, hstep⟩
  · rw [hstages, hread]
    exact h.stages

/-- The file is written while nobody is asked, and its stage does not go back. -/
theorem written (h : s.Kept) (hnone : s.unanswered = false) {stores : Stores}
    (hrank : s.stores.read.stage.rank ≤ stores.read.stage.rank) :
    Kept { s with stores, stages := stores.read.stage :: s.stages } := by
  refine ⟨h.obeys, h.single, h.own, h.asking, h.holder, h.mine, h.attempts,
    fun m g q hq => absurd ⟨hq.task, hq.future⟩ (not_unanswered hnone), ⟨rfl, h.pushed hrank⟩,
    h.connected⟩

theorem overStage_le {changes : Changes} (hover : s.overStage changes.stage = true)
    (hlow : ∀ stage, changes.stage = some stage → Stage.maxOnboardingPending.rank ≤ stage.rank) :
    s.stores.read.stage.rank ≤ (changes.stage.getD s.stores.read.stage).rank := by
  cases hstage : changes.stage with
  | none => exact Nat.le_refl _
  | some stage =>
      have hlow := hlow stage hstage
      rw [hstage] at hover
      revert hover
      simp only [overStage, Option.getD_some]
      generalize s.stores.read.stage = old
      cases stage <;> cases old <;> first | decide | exact absurd hlow (by decide)

/-- An answer is handed to a gateway. -/
theorem submitted (h : s.Kept) (gateway : Nat) (text : String) :
    (s.perform (.submit gateway text)).2.Kept := by
  refine ⟨h.obeys, h.single, h.own, h.asking, h.holder, h.mine, h.attempts, fun m g q hq => ?_,
    h.stages, h.connected⟩
  have hfuture := hq.future
  simp only [perform, atGateway] at hfuture ⊢
  by_cases hg : g = gateway
  · subst hg
    rw [Function.update_self] at hfuture
    -- It was open and the gateway's, and then it was answered.
    exfalso
    have hold : (s.gateways g).future = some .open := by
      unfold Gateway.submit at hfuture
      split at hfuture
      · cases hfuture
      · exact hfuture
    have hpending := (h.unanswered m g q ⟨hq.task, hold⟩).2.1
    simp [Gateway.submit, hold, hpending] at hfuture
  · rw [Function.update_of_ne hg] at hfuture ⊢
    exact h.unanswered m g q ⟨hq.task, hfuture⟩

/-- The attempt that is inside takes its question back. -/
theorem closed (h : s.Kept) (ht : s.tasks[n]? = some t) {gateway : Nat}
    (hin : t.book.Inside t.kind gateway) (hlive : t.isOver = false) :
    (s.perform (.close gateway)).2.Kept := by
  refine ⟨h.obeys, h.single, h.own, h.asking, h.holder, h.mine, h.attempts, fun m g q hq => ?_,
    h.stages, h.connected⟩
  have hfuture := hq.future
  simp only [perform, atGateway] at hfuture ⊢
  by_cases hg : g = gateway
  · subst hg
    rw [Function.update_self] at hfuture
    obtain ⟨u, hu, -, huin, hasks⟩ := h.asker ⟨hq.task, hfuture⟩
    obtain rfl := h.single m n u t g g hu ht huin (Task.inside_eq_some.mpr ⟨hlive, hin.inside⟩)
    obtain rfl := Option.some.inj (hu.symm.trans ht)
    exact absurd (hin.asks.symm.trans hasks) nofun
  · rw [Function.update_of_ne hg] at hfuture ⊢
    exact h.unanswered m g q ⟨hq.task, hfuture⟩

/-- The attempt that is inside puts a prompt. -/
theorem asked (h : s.Kept) (ht : s.tasks[n]? = some t) (hfresh : t.Fresh) {gateway : Nat}
    (hin : t.book.Inside t.kind gateway) (hcut : t.book.cut = false) (hlive : t.isOver = false)
    {question : Question} {x : Prog Next}
    (hobeys : Obeys (protocol t.kind) { t.book with asks := some question } x (Ends t.kind)) :
    ((s.perform (.ask gateway question)).2.goes n x
      fun b => { b with asks := some question }).Kept := by
  have hnot : t.kind ≠ .action := by
    rw [hin.kind]
    exact nofun
  have hgateway : s.gateway = some gateway := by
    refine (h.holder n t gateway ht (Task.inside_eq_some.mpr ⟨hlive, hin.inside⟩)).resolve_right ?_
    rintro ⟨-, -, hc | hb⟩
    · exact absurd (hcut.symm.trans (hfresh hnot hc)) nofun
    · exact absurd (hcut.symm.trans hb) nofun
  have hstage : (s.perform (.ask gateway question)).2.stores.read.stage = s.stores.read.stage :=
    Stores.stage_update _ _ _
  refine h.went (f := fun b => { b with asks := some question }) ht rfl rfl rfl hobeys
    (.inl ⟨rfl, .inl hlive⟩)
    (fun _ _ _ => Option.isSome_iff_exists.mpr ⟨gateway, hin.inside⟩) (.inl rfl)
    (fun m g q hq => ?_) ⟨rfl, h.pushed (Nat.le_of_eq (congrArg Stage.rank hstage.symm))⟩ h.connected
  obtain ⟨u, hu, hover, hk, hasked⟩ := hq.task
  rcases goes_cases (s := (s.perform (.ask gateway question)).2) ht hu with ⟨rfl, rfl⟩ | ⟨hm, hu⟩
  · obtain rfl : question = q := Option.some.inj hasked
    obtain rfl : gateway = g := Kind.attempt.inj (hin.kind.symm.trans hk)
    refine ⟨hgateway, ?_, rfl, ?_⟩
    · change (Function.update s.gateways gateway _ gateway).pending = true
      rw [Function.update_self]
      rfl
    · exact ⟨_, Function.update_self 0 _ s.stores.cached, rfl⟩
  · -- Nobody else is asked.
    exfalso
    have hinside : u.book.inside.isSome = true := h.asking m u q hu (by rw [hk]; exact nofun) hasked
    obtain ⟨g', hg'⟩ := Option.isSome_iff_exists.mp hinside
    exact hm (h.single m n u t g' gateway hu ht (Task.inside_eq_some.mpr ⟨hover, hg'⟩)
      (Task.inside_eq_some.mpr ⟨hlive, hin.inside⟩))

/-- Whoever waits for a gateway gives it up. -/
theorem drop (h : s.Kept) (gateway : Nat) : (s.atGateway gateway Gateway.drop).Kept := by
  refine ⟨h.obeys, h.single, h.own, h.asking, h.holder, h.mine, h.attempts, fun m g q hq => ?_,
    h.stages, h.connected⟩
  have hfuture := hq.future
  simp only [atGateway] at hfuture ⊢
  by_cases hg : g = gateway
  · subst hg
    rw [Function.update_self] at hfuture
    unfold Gateway.drop at hfuture
    split at hfuture
    · cases hfuture
    · next hopen => exact absurd hfuture hopen
  · rw [Function.update_of_ne hg] at hfuture ⊢
    exact h.unanswered m g q ⟨hq.task, hfuture⟩

end Kept

/-- The attempt is told that it is cancelled, unless it is over. -/
theorem getElem_abandonAttempt (s : State) (m : Nat) :
    s.abandonAttempt.2.tasks[m]? =
      (s.tasks[m]?).map fun t =>
        { t with cancelled := t.cancelled || (s.attempt = some m && !t.isOver) } := by
  cases hattempt : s.attempt with
  | none => cases hgateway : s.gateway <;> simp [abandonAttempt, hattempt, hgateway, atGateway]
  | some task =>
      by_cases hover : (s.tasks[task]?).all Task.isOver = true
      · have hsame (t : Task) (ht : s.tasks[m]? = some t) :
            { t with cancelled := t.cancelled || (decide (some task = some m) && !t.isOver) } = t := by
          by_cases hm : task = m
          · subst hm
            rw [ht] at hover
            have hover : t.isOver = true := hover
            simp [hover]
          · simp [hm]
        have htasks : s.abandonAttempt.2.tasks = s.tasks := by
          cases hgateway : s.gateway <;> simp [abandonAttempt, hattempt, hgateway, hover, atGateway]
        rw [htasks]
        cases ht : s.tasks[m]? with
        | none => rfl
        | some t => exact congrArg some (hsame t ht).symm
      · have htasks : s.abandonAttempt.2.tasks =
            s.tasks.modify task fun t => { t with cancelled := true } := by
          cases hgateway : s.gateway <;> simp [abandonAttempt, hattempt, hgateway, hover, atGateway]
        rw [htasks, List.getElem?_modify]
        cases ht : s.tasks[m]? with
        | none => rfl
        | some t =>
            by_cases hm : task = m
            · subst hm
              have hlive : t.isOver = false := by
                simpa [ht] using hover
              simp [hlive]
            · simp [hm]

theorem attempt_abandonAttempt (s : State) : s.abandonAttempt.2.attempt = none := by
  cases hattempt : s.attempt <;> cases hgateway : s.gateway <;>
    simp only [abandonAttempt, hattempt, hgateway, atGateway] <;> split <;> rfl

theorem gateway_abandonAttempt (s : State) : s.abandonAttempt.2.gateway = none := by
  cases hattempt : s.attempt <;> cases hgateway : s.gateway <;>
    simp only [abandonAttempt, hattempt, hgateway, atGateway] <;> split <;> rfl

/-- The rest is as it was. -/
theorem rest_abandonAttempt (s : State) :
    s.abandonAttempt.2.stores = s.stores ∧ s.abandonAttempt.2.stages = s.stages ∧
      s.abandonAttempt.2.disconnected = s.disconnected := by
  cases hattempt : s.attempt <;> cases hgateway : s.gateway <;>
    simp [abandonAttempt, hattempt, hgateway, atGateway] <;> split <;> exact ⟨rfl, rfl, rfl⟩

/-- What was pending at the flow's gateway is raised there. -/
theorem gateways_abandonAttempt (s : State) (g : Nat) :
    (s.abandonAttempt.2.gateways g) =
      if s.gateway = some g then (s.gateways g).abandon else s.gateways g := by
  have hgateways : s.abandonAttempt.2.gateways =
      s.gateway.elim s.gateways fun gateway => (s.atGateway gateway Gateway.abandon).gateways := by
    cases hattempt : s.attempt <;> cases hgateway : s.gateway <;>
      simp only [abandonAttempt, hattempt, hgateway, atGateway] <;>
      first | rfl | (split <;> rfl)
  rw [hgateways]
  cases hgateway : s.gateway with
  | none => rw [if_neg nofun, Option.elim_none]
  | some gateway =>
      rw [Option.elim_some]
      by_cases hg : gateway = g
      · subst hg
        rw [if_pos rfl]
        exact Function.update_self ..
      · rw [if_neg fun h => hg (Option.some.inj h)]
        exact Function.update_of_ne (Ne.symm hg) ..

/-- Nobody is at it to start a login. -/
theorem not_starting (h : s.starting = false) (ht : s.tasks[n]? = some t) {g : Nat}
    (hg : t.inside = some g) : t.kind ≠ .action := by
  intro hk
  have hnone := List.any_eq_false.mp h t (List.mem_of_getElem? ht)
  simp [hk, hg] at hnone

/-- **The attempt is abandoned**, and nobody is asked any more. -/
theorem Kept.abandoned (h : s.Kept) (hnone : s.starting = false) : s.abandonAttempt.2.Kept := by
  have hwas {m : Nat} {u : Task} (hu : s.abandonAttempt.2.tasks[m]? = some u) :
      ∃ t, s.tasks[m]? = some t ∧
        u = { t with cancelled := t.cancelled || (s.attempt = some m && !t.isOver) } := by
    rw [getElem_abandonAttempt] at hu
    obtain ⟨t, ht, rfl⟩ := Option.map_eq_some_iff.mp hu
    exact ⟨t, ht, rfl⟩
  obtain ⟨hstores, hstages, hdisconnected⟩ := rest_abandonAttempt s
  refine ⟨fun m u hu => ?_, fun m m' u u' g g' hu hu' hg hg' => ?_, fun m u g g' hu hk hg => ?_,
    fun m u q hu hk hq => ?_, fun m u g hu hg => ?_, fun m u g hu hk hg hc hb => ?_,
    fun m hm => ?_, fun m g q hq => ?_, ?_, hdisconnected.trans h.connected⟩
  · obtain ⟨t, ht, rfl⟩ := hwas hu
    exact h.obeys m t ht
  · obtain ⟨t, ht, rfl⟩ := hwas hu
    obtain ⟨t', ht', rfl⟩ := hwas hu'
    exact h.single m m' t t' g g' ht ht' hg hg'
  · obtain ⟨t, ht, rfl⟩ := hwas hu
    exact h.own m t g g' ht hk hg
  · obtain ⟨t, ht, rfl⟩ := hwas hu
    exact h.asking m t q ht hk hq
  · obtain ⟨t, ht, rfl⟩ := hwas hu
    have hk : t.kind ≠ .action := not_starting hnone ht hg
    refine .inr ⟨gateway_abandonAttempt s, hk, ?_⟩
    by_cases hc : t.cancelled = true
    · exact .inl (by simp [hc])
    by_cases hb : t.book.cut = true
    · exact .inr hb
    -- Then it is the flow's attempt, and told.
    have hmine := h.mine m t g ht hk hg (Bool.not_eq_true _ ▸ hc) (Bool.not_eq_true _ ▸ hb)
    have hlive := (Task.inside_eq_some.mp hg).1
    exact .inl (by simpa [hmine] using .inr hlive)
  · obtain ⟨t, ht, rfl⟩ := hwas hu
    obtain ⟨hc, htold⟩ := Bool.or_eq_false_iff.mp hc
    have hmine := h.mine m t g ht hk hg hc hb
    have hlive := (Task.inside_eq_some.mp hg).1
    have hover : t.isOver = false := hlive
    simp [hmine, hover] at htold
  · exact absurd ((attempt_abandonAttempt s).symm.trans hm) nofun
  · -- It would have been the flow's gateway that asks.
    exfalso
    obtain ⟨u, hu, hover, hk, hasks⟩ := hq.task
    obtain ⟨t, ht, rfl⟩ := hwas hu
    have hfuture := hq.future
    rw [gateways_abandonAttempt] at hfuture
    by_cases hg : s.gateway = some g
    · rw [if_pos hg] at hfuture
      have hopen : (s.gateways g).future = some .open := by
        unfold Gateway.abandon at hfuture
        split at hfuture
        · cases hfuture
        · exact hfuture
      have hpending := (h.unanswered m g q ⟨⟨t, ht, hover, hk, hasks⟩, hopen⟩).2.1
      simp [Gateway.abandon, hopen, hpending] at hfuture
    · rw [if_neg hg] at hfuture
      exact hg (h.unanswered m g q ⟨⟨t, ht, hover, hk, hasks⟩, hfuture⟩).1
  · rw [hstores, hstages]
    exact h.stages

end State

end Telemax.Onboarding
