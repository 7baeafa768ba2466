import Telemax.Onboarding.Held

/-!
# Telemax.Onboarding.Turns

A task runs from one await to the next, and what holds between two things that are
done holds at its end: `Kept.sync` for one of them, `Kept.settled` for a turn.
-/

namespace Telemax.Onboarding

open Script

/-- Only the first list has the place. -/
private theorem modify_append {α : Type} {f : α → α} {l l' : List α} {n : Nat}
    (h : n < l.length) : (l ++ l').modify n f = l.modify n f ++ l' := by
  induction l generalizing n with
  | nil => exact absurd h (Nat.not_lt_zero n)
  | cons a l ih =>
      cases n with
      | zero => rfl
      | succ n => simp [ih (Nat.lt_of_succ_lt_succ h)]

namespace State

variable {cfg : Config} {s : State} {n : Nat} {t : Task}

namespace Kept

/-- A task that begins, and is inside of nothing. -/
theorem appended (h : s.Kept) {x : Prog Next}
    (hobeys : Obeys (protocol .action) {} x (Ends .action)) :
    Kept { s with tasks := s.tasks ++ [{ kind := .action, prog := x }] } := by
  have hcases {m : Nat} {u : Task}
      (hu : (s.tasks ++ [{ kind := .action, prog := x }])[m]? = some u) :
      s.tasks[m]? = some u ∨ u = { kind := .action, prog := x } := by
    rcases List.mem_append.mp (List.mem_of_getElem? hu) with _ | hnew
    · by_cases hm : m < s.tasks.length
      · exact .inl (List.getElem?_append_left hm ▸ hu)
      · rw [List.getElem?_append_right (Nat.le_of_not_lt hm)] at hu
        exact .inr (List.mem_singleton.mp (List.mem_of_getElem? hu))
    · exact .inr (List.mem_singleton.mp hnew)
  have hold {m : Nat} {u : Task} {g : Nat}
      (hu : (s.tasks ++ [{ kind := .action, prog := x }])[m]? = some u) (hg : u.inside = some g) :
      s.tasks[m]? = some u := by
    refine (hcases hu).resolve_right ?_
    rintro rfl
    exact absurd (Task.inside_eq_some.mp hg).2 nofun
  refine ⟨fun m u hu => ?_,
    fun m m' u u' g g' hu hu' hg hg' => h.single m m' u u' g g' (hold hu hg) (hold hu' hg') hg hg',
    fun m u g g' hu hk hg => ?_, fun m u q hu hk hq => ?_,
    fun m u g hu hg => h.holder m u g (hold hu hg) hg,
    fun m u g hu hk hg => h.mine m u g (hold hu hg) hk hg, fun m hm => ?_,
    fun m g q hq => ?_, h.stages, h.connected⟩
  · rcases hcases hu with hu | rfl
    · exact h.obeys m u hu
    · exact hobeys
  · rcases hcases hu with hu | rfl
    · exact h.own m u g g' hu hk hg
    · exact absurd hg nofun
  · rcases hcases hu with hu | rfl
    · exact h.asking m u q hu hk hq
    · exact absurd rfl hk
  · obtain ⟨u, hu, hk⟩ := h.attempts m hm
    exact ⟨u, (List.getElem?_append_left (List.getElem?_eq_some_iff.mp hu).1).trans hu, hk⟩
  · obtain ⟨u, hu, hover, hk, hasks⟩ := hq.task
    rcases hcases hu with hu | rfl
    · exact h.unanswered m g q ⟨⟨u, hu, hover, hk, hasks⟩, hq.future⟩
    · cases hk

/-- A gateway is made for a login that starts while no other is being started or is inside. -/
theorem opened (h : s.Kept) (ht : s.tasks[n]? = some t) (hk : t.kind = .action)
    (hnone : s.loggingIn = false) {x : Prog Next}
    (hobeys : Obeys (protocol t.kind) { t.book with inside := some s.made } x (Ends t.kind)) :
    ((s.perform .openGateway).2.goes n x fun b => { b with inside := some s.made }).Kept := by
  have hcases {m : Nat} {u : Task} (hu : ((s.perform .openGateway).2.goes n x fun b =>
      { b with inside := some s.made }).tasks[m]? = some u) :
      m = n ∧ u = { t with prog := x, book := { t.book with inside := some s.made } } ∨
        m ≠ n ∧ s.tasks[m]? = some u :=
    goes_cases (s := (s.perform .openGateway).2) ht hu
  have honly {m : Nat} {u : Task} {g : Nat} (hu : ((s.perform .openGateway).2.goes n x fun b =>
      { b with inside := some s.made }).tasks[m]? = some u) (hg : u.inside = some g) :
      m = n ∧ u.kind = .action ∧ g = s.made := by
    rcases hcases hu with ⟨rfl, rfl⟩ | ⟨-, hu⟩
    · exact ⟨rfl, hk, (Option.some.inj (Task.inside_eq_some.mp hg).2).symm⟩
    · exact absurd ((not_inside hnone hu).symm.trans hg) nofun
  refine ⟨fun m u hu => ?_,
    fun m m' u u' g g' hu hu' hg hg' => (honly hu hg).1.trans (honly hu' hg').1.symm,
    fun m u g g' hu hkind hg => ?_, fun m u q hu hkind hq => ?_,
    fun m u g hu hg => .inl (congrArg some (honly hu hg).2.2.symm),
    fun m u g hu hkind hg => absurd (honly hu hg).2.1 hkind, fun m hm => ?_,
    fun m g q hq => ?_, h.stages, h.connected⟩
  · rcases hcases hu with ⟨rfl, rfl⟩ | ⟨-, hu⟩
    · exact hobeys
    · exact h.obeys m u hu
  · rcases hcases hu with ⟨rfl, rfl⟩ | ⟨-, hu⟩
    · exact absurd (hk.symm.trans hkind) nofun
    · exact h.own m u g g' hu hkind hg
  · rcases hcases hu with ⟨rfl, rfl⟩ | ⟨-, hu⟩
    · exact absurd hk hkind
    · exact h.asking m u q hu hkind hq
  · obtain ⟨u, hu, hkind⟩ := h.attempts m hm
    have hne : m ≠ n := by
      rintro rfl
      obtain rfl := Option.some.inj (ht.symm.trans hu)
      exact hkind hk
    refine ⟨u, ?_, hkind⟩
    rw [getElem_goes]
    exact (congrArg (Option.map _) hu).trans (by rw [Option.map_some, if_neg (Ne.symm hne)])
  · -- Nobody was asked, as nobody was inside.
    exfalso
    obtain ⟨u, hu, hover, hkind, hasks⟩ := hq.task
    rcases hcases hu with ⟨rfl, rfl⟩ | ⟨-, hu⟩
    · exact absurd (hk.symm.trans hkind) nofun
    · have hin := h.asking m u q hu (by rw [hkind]; exact nofun) hasks
      obtain ⟨g', hg'⟩ := Option.isSome_iff_exists.mp hin
      exact absurd ((not_inside hnone hu).symm.trans (Task.inside_eq_some.mpr ⟨hover, hg'⟩)) nofun

/-- The attempt begins with its gateway, which is the flow's. -/
theorem created (h : s.Kept) (hnone : ∀ (m : Nat) (u : Task), s.tasks[m]? = some u → u.inside = none)
    {gateway : Nat} (hgateway : s.gateway = some gateway) (phone : String) :
    (s.perform (.createTask phone gateway)).2.Kept := by
  let new : Task :=
    { kind := .attempt gateway, prog := login phone gateway, book := { inside := some gateway } }
  have hcases {m : Nat} {u : Task} (hu : (s.tasks ++ [new])[m]? = some u) :
      s.tasks[m]? = some u ∨ m = s.tasks.length ∧ u = new := by
    by_cases hm : m < s.tasks.length
    · exact .inl (List.getElem?_append_left hm ▸ hu)
    · rw [List.getElem?_append_right (Nat.le_of_not_lt hm)] at hu
      obtain ⟨hlt, hget⟩ := List.getElem?_eq_some_iff.mp hu
      have hzero : m - s.tasks.length = 0 := Nat.lt_one_iff.mp hlt
      refine .inr ⟨by omega, ?_⟩
      simpa [hzero] using hget.symm
  have honly {m : Nat} {u : Task} {g : Nat} (hu : (s.tasks ++ [new])[m]? = some u)
      (hg : u.inside = some g) : m = s.tasks.length ∧ u = new :=
    (hcases hu).resolve_left fun hold => absurd ((hnone m u hold).symm.trans hg) nofun
  refine ⟨fun m u hu => ?_,
    fun m m' u u' g g' hu hu' hg hg' => (honly hu hg).1.trans (honly hu' hg').1.symm,
    fun m u g g' hu hk hg => ?_, fun m u q hu hk hq => ?_, fun m u g hu hg => ?_,
    fun m u g hu hk hg hc hb => congrArg some (honly hu hg).1.symm, fun m hm => ?_,
    fun m g q hq => ?_, h.stages, h.connected⟩
  · rcases hcases hu with hu | ⟨-, rfl⟩
    · exact h.obeys m u hu
    · exact obeys_login phone ⟨rfl, rfl, rfl⟩ rfl
  · rcases hcases hu with hu | ⟨-, rfl⟩
    · exact h.own m u g g' hu hk hg
    · exact (Option.some.inj hg).symm.trans (Kind.attempt.inj hk)
  · rcases hcases hu with hu | ⟨-, rfl⟩
    · exact h.asking m u q hu hk hq
    · rfl
  · obtain ⟨-, rfl⟩ := honly hu hg
    exact .inl (hgateway.trans (Task.inside_eq_some.mp hg).2)
  · obtain rfl : s.tasks.length = m := Option.some.inj hm
    exact ⟨new, List.getElem?_concat_length, nofun⟩
  · obtain ⟨u, hu, hover, hk, hasks⟩ := hq.task
    rcases hcases hu with hu | ⟨-, rfl⟩
    · exact h.unanswered m g q ⟨⟨u, hu, hover, hk, hasks⟩, hq.future⟩
    · cases hasks

/-- The end of the only attempt: the gateway is its own, or nobody's. -/
theorem cleared (h : s.Kept) (hnone : ∀ (m : Nat) (u : Task), s.tasks[m]? = some u → u.inside = none)
    {gateway : Nat} (hgateway : s.gateway = some gateway ∨ s.gateway = none) :
    (s.perform (.clearGateway gateway)).2.Kept := by
  refine ⟨h.obeys, h.single, h.own, h.asking,
    fun m u g hu hg => absurd ((hnone m u hu).symm.trans hg) nofun, h.mine, h.attempts,
    fun m g q hq => ?_, h.stages, ?_⟩
  · obtain ⟨u, hu, -, hin, -⟩ := h.asker ⟨hq.task, hq.future⟩
    exact absurd ((hnone m u hu).symm.trans hin) nofun
  · rcases hgateway with hown | hnobody
    · simp only [perform, hown, if_pos]
      exact h.connected
    · simp only [perform, hnobody]
      exact h.connected

/-- Nobody is inside once the login that is has left. -/
theorem left (h : s.Kept) (ht : s.tasks[n]? = some t) {g : Nat} (hg : t.inside = some g)
    {x : Prog Next} {f : Book → Book} (hf : (f t.book).inside = none) (m : Nat) (u : Task)
    (hu : (s.goes n x f).tasks[m]? = some u) : u.inside = none := by
  rcases goes_cases ht hu with ⟨rfl, rfl⟩ | ⟨hm, hu⟩
  · cases hin : Task.inside { t with prog := x, book := f t.book } with
    | none => rfl
    | some g' => exact absurd (hf.symm.trans (Task.inside_eq_some.mp hin).2) nofun
  · cases hin : u.inside with
    | none => rfl
    | some g' => exact absurd (h.single m n u t g' g hu ht hin hg) hm

/-! ## one turn -/

/-- The same task, with nothing new in its book. -/
theorem goes_on (h : s.Kept) (ht : s.tasks[n]? = some t) (hlive : t.isOver = false) {x : Prog Next}
    {f : Book → Book} (hbook : f t.book = t.book)
    (hobeys : Obeys (protocol t.kind) (f t.book) x (Ends t.kind)) : (s.goes n x f).Kept :=
  h.goes ht hobeys (.inl ⟨congrArg Book.inside hbook, .inl hlive⟩)
    (.inl ⟨congrArg Book.asks hbook, hlive⟩) (.inl (congrArg Book.cut hbook))

/-- **What is done between two awaits keeps it**, where nothing goes wrong with it. -/
theorem sync (h : s.Kept) (ht : s.tasks[n]? = some t) {x : Sync} {k : x.Answer → Prog Next}
    (hprog : t.prog = .ask (.sync x) k) (hfresh : t.Fresh) (hmay : s.may x = true) :
    ((s.perform x).2.goes n (k (s.perform x).1) fun b =>
      b.next (.sync x) (s.perform x).1).Kept := by
  have hlive : t.isOver = false := by simp only [Task.isOver, hprog]
  obtain ⟨hallowed, hrest⟩ := obeys_ask.mp (hprog ▸ h.obeys n t ht)
  have hobeys : Obeys (protocol t.kind) (t.book.next (.sync x) (s.perform x).1)
      (k (s.perform x).1) (Ends t.kind) := hrest _
  cases x with
  | load =>
      have hread : (s.perform .load).2.Kept :=
        h.looked rfl rfl rfl rfl (Stores.read_load s.stores 0)
          (fun r hr => Stores.cached_load 0 hr) rfl rfl
      exact hread.goes_on ht hlive rfl hobeys
  | update changes =>
      obtain ⟨hnone, hover⟩ := Bool.and_eq_true_iff.mp hmay
      have hnone : s.unanswered = false := by simpa using hnone
      have hrank : s.stores.read.stage.rank ≤ (s.stores.update 0 changes).read.stage.rank := by
        rw [Stores.stage_update]
        exact overStage_le hover hallowed
      exact (h.written hnone hrank).goes_on ht hlive rfl hobeys
  | gateway | timezone | telegramPhone => exact h.goes_on ht hlive rfl hobeys
  | setTimezone name =>
      have hset : (s.perform (.setTimezone name)).2.Kept :=
        h.looked rfl rfl rfl rfl rfl (fun r hr => hr) rfl rfl
      exact hset.goes_on ht hlive rfl hobeys
  | submit gateway text => exact (h.submitted gateway text).goes_on ht hlive rfl hobeys
  | ask gateway question =>
      obtain ⟨hk, hin, hasks, hcut⟩ := hallowed
      exact h.asked ht hfresh ⟨hk, hin, hasks⟩ hcut hlive hobeys
  | close gateway =>
      obtain ⟨hk, hin, hasks⟩ := hallowed
      exact (h.closed ht ⟨hk, hin, hasks⟩ hlive).goes_on ht hlive rfl hobeys
  | abandonAttempt =>
      have hk : t.kind = .action := hallowed
      have hkept : s.abandonAttempt.2.Kept := h.abandoned (by simpa [may] using hmay)
      have ht' := getElem_abandonAttempt s n
      rw [ht, Option.map_some] at ht'
      exact hkept.goes_on ht' hlive rfl hobeys
  | openGateway => exact h.opened ht hallowed (by simpa [may] using hmay) hobeys
  | createTask phone gateway =>
      obtain ⟨hk, hin⟩ := hallowed
      have hinside := Task.inside_eq_some.mpr ⟨hlive, hin⟩
      have hgateway : s.gateway = some gateway :=
        (h.holder n t gateway ht hinside).resolve_right fun hnone => hnone.2.1 hk
      -- The login is the task's no more when the attempt begins.
      have hgone : (s.goes n (k ()) fun b => { b with inside := none }).Kept :=
        h.goes (f := fun b => { b with inside := none }) ht hobeys (.inr ⟨rfl, .inl hk⟩)
          (.inl ⟨rfl, hlive⟩) (.inl rfl)
      have hcreated := hgone.created (h.left ht hinside rfl) hgateway phone
      have heq : (s.perform (.createTask phone gateway)).2.goes n (k ())
          (fun b => { b with inside := none }) =
            ((s.goes n (k ()) fun b => { b with inside := none }).perform
              (.createTask phone gateway)).2 := by
        have hlt : n < s.tasks.length := (List.getElem?_eq_some_iff.mp ht).1
        simp only [State.goes, perform, List.length_modify, modify_append hlt]
      exact heq ▸ hcreated
  | clearGateway gateway =>
      obtain ⟨hk, hin⟩ := hallowed
      have hinside := Task.inside_eq_some.mpr ⟨hlive, hin⟩
      have hgateway : s.gateway = some gateway ∨ s.gateway = none :=
        (h.holder n t gateway ht hinside).imp_right fun hnone => hnone.1
      have hgone : (s.goes n (k ()) fun b => { b with inside := none, asks := none }).Kept :=
        h.goes (f := fun b => { b with inside := none, asks := none }) ht hobeys
          (.inr ⟨rfl, .inr rfl⟩) (.inr rfl) (.inl rfl)
      exact hgone.cleared (h.left ht hinside rfl) hgateway

end Kept

/-- What is done leaves the task's program to it, and its cancellation, which comes only to an
attempt. -/
theorem getElem_perform (s : State) (x : Sync) (ht : s.tasks[n]? = some t) :
    ∃ u, (s.perform x).2.tasks[n]? = some u ∧ u.kind = t.kind ∧ u.prog = t.prog ∧
      u.book = t.book ∧ (x ≠ .abandonAttempt → u.cancelled = t.cancelled) := by
  cases x with
  | abandonAttempt =>
      have hwas := (getElem_abandonAttempt s n).trans (congrArg (Option.map _) ht)
      exact ⟨_, hwas, rfl, rfl, rfl, fun h => absurd rfl h⟩
  | createTask phone gateway =>
      exact ⟨t, (List.getElem?_append_left (List.getElem?_eq_some_iff.mp ht).1).trans ht, rfl, rfl,
        rfl, fun _ => rfl⟩
  | load | update _ | gateway | submit _ _ | ask _ _ | close _ | openGateway | clearGateway _
  | timezone | setTimezone _ | telegramPhone => exact ⟨t, ht, rfl, rfl, rfl, fun _ => rfl⟩

theorem getElem_goes_self (ht : s.tasks[n]? = some t) (x : Prog Next) (f : Book → Book) :
    (s.goes n x f).tasks[n]? = some { t with prog := x, book := f t.book } := by
  rw [getElem_goes, ht, Option.map_some, if_pos rfl]

/-- A book that is cut stays cut. -/
theorem cut_next (b : Book) (x : Sync) (r : x.Answer) : (b.next (.sync x) r).cut = b.cut := by
  cases x <;> rfl

/-- The task where it has come to, which knows of its cancellation. -/
structure At (s : State) (n : Nat) (x : Prog Next) (t : Task) : Prop where
  kept : s.Kept
  task : s.tasks[n]? = some t
  prog : t.prog = x
  fresh : t.Fresh

/-- From one thing that is done to the next. -/
theorem At.sync {x : Sync} {k : x.Answer → Prog Next} (h : s.At n (.ask (.sync x) k) t)
    (hmay : s.may x = true) :
    ∃ u, At ((s.perform x).2.goes n (k (s.perform x).1) fun b =>
      b.next (.sync x) (s.perform x).1) n (k (s.perform x).1) u := by
  obtain ⟨u, hu, hkind, hprog, hbook, hcancelled⟩ := getElem_perform s x h.task
  refine ⟨_, h.kept.sync h.task h.prog h.fresh hmay, getElem_goes_self hu _ _, rfl, ?_⟩
  intro hk hc
  have hne : x ≠ .abandonAttempt := by
    rintro rfl
    have hallowed := (obeys_ask.mp (h.prog ▸ h.kept.obeys n t h.task)).1
    exact hk (hkind.trans hallowed)
  have hcut := h.fresh (hkind ▸ hk) ((hcancelled hne).symm.trans hc)
  exact (cut_next u.book x _).trans ((congrArg Book.cut hbook).trans hcut)

/-- **A turn**, up to the next await. -/
theorem At.settled {x : Prog Next} (h : s.At n x t) (hsettles : settles n x s = true) :
    ∃ y u, At (settle n x s) n y u := by
  induction x generalizing s t with
  | done r => exact ⟨_, t, h⟩
  | fail e => exact ⟨_, t, h⟩
  | ask op k ih =>
      cases op with
      | await a => exact ⟨_, t, h⟩
      | sync x =>
          obtain ⟨hmay, hrest⟩ := Bool.and_eq_true_iff.mp hsettles
          obtain ⟨u, hu⟩ := h.sync hmay
          exact ih _ hu hrest

/-- The round after a round that has ended inside `connect`. -/
theorem At.restarted {x : Prog Next} (h : s.At n x t) (hrestarts : s.restarts n = true) :
    (s.restart n).Kept := by
  have hprog : (s.tasks[n]?).map Task.prog = some x := by
    rw [h.task, Option.map_some, h.prog]
  unfold restart
  unfold restarts at hrestarts
  rw [hprog] at hrestarts ⊢
  split at hrestarts
  · next phone gateway hx =>
      obtain rfl := Option.some.inj hx
      have hends := h.prog ▸ h.kept.obeys n t h.task
      obtain ⟨hin, hcut⟩ := hends phone gateway rfl
      have hlive : t.isOver = false := by simp only [Task.isOver, h.prog]
      have hgoes : (s.goes n (Next.connecting phone gateway).round id).Kept :=
        h.kept.goes_on (f := id) h.task hlive rfl (obeys_round hin hcut phone)
      have hat : At (s.goes n (Next.connecting phone gateway).round id) n _
          { t with prog := (Next.connecting phone gateway).round } :=
        ⟨hgoes, getElem_goes_self h.task _ _, rfl, h.fresh⟩
      obtain ⟨y, u, hu⟩ := hat.settled hrestarts
      exact hu.kept
  · exact h.kept

/-- **A task goes on** with a program that it keeps to. -/
theorem Kept.runs {x : Prog Next} {f : Book → Book} (h : (s.goes n x f).Kept)
    (ht : s.tasks[n]? = some t)
    (hfresh : t.kind ≠ .action → t.cancelled = true → (f t.book).cut = true)
    (hcareful : s.carefully n x f = true) : (s.runs n x f).Kept := by
  obtain ⟨hsettles, hrestarts⟩ := Bool.and_eq_true_iff.mp hcareful
  have hat : At (s.goes n x f) n x { t with prog := x, book := f t.book } :=
    ⟨h, getElem_goes_self ht _ _, rfl, hfresh⟩
  obtain ⟨y, u, hu⟩ := hat.settled hsettles
  exact hu.restarted hrestarts

/-- **Nothing that is done carefully loses the question.** -/
theorem Kept.step (h : s.Kept) {e : Event} {s' : State} (hcareful : s.careful cfg e = true)
    (hst : s.step cfg e = some s') : s'.Kept := by
  cases e with
  | call a =>
      obtain rfl := Option.some.inj hst
      have hbegins : (s.begins cfg a).Kept := h.appended (obeys_program cfg a)
      have ht : (s.begins cfg a).tasks[s.tasks.length]? =
          some { kind := .action, prog := a.program cfg } := List.getElem?_concat_length
      refine Kept.runs ?_ ht (fun hk => absurd rfl hk) hcareful
      exact hbegins.goes (f := id) ht (obeys_program cfg a) (.inl ⟨rfl, .inr rfl⟩) (.inr rfl)
        (.inl rfl)
  | answer n reply =>
      cases ht : s.tasks[n]? with
      | none => simp [State.step, ht] at hst
      | some t =>
          simp only [State.step, ht] at hst
          simp only [State.careful, ht, Option.all_some] at hcareful
          split at hst
          · next a k hprog =>
              split at hst
              · cases hst
              · next hnot =>
                  obtain ⟨r, hfit, rfl⟩ := Option.map_eq_some_iff.mp hst
                  simp only [hprog, hfit, Option.all_some] at hcareful
                  have hlive : t.isOver = false := by simp only [Task.isOver, hprog]
                  obtain ⟨-, hrest⟩ := obeys_ask.mp (hprog ▸ h.obeys n t ht)
                  refine Kept.runs ?_ ht (fun _ hc => absurd hc hnot) hcareful
                  refine h.goes ht (hrest (.ok r)) ?_ ?_ ?_
                  · cases a <;> exact .inl ⟨rfl, .inl hlive⟩
                  · cases a <;> first | exact .inl ⟨rfl, hlive⟩ | exact .inr rfl
                  · cases a <;> exact .inl rfl
          · cases hst
  | fault n f =>
      cases ht : s.tasks[n]? with
      | none => simp [State.step, ht] at hst
      | some t =>
          simp only [State.step, ht] at hst
          simp only [State.careful, ht, Option.all_some] at hcareful
          split at hst
          · next a k hprog =>
              split at hst
              · cases hst
              · next hnot =>
                  obtain rfl := Option.some.inj hst
                  simp only [hprog] at hcareful
                  have hlive : t.isOver = false := by simp only [Task.isOver, hprog]
                  obtain ⟨-, hrest⟩ := obeys_ask.mp (hprog ▸ h.obeys n t ht)
                  have hdropped : (s.dropped a).Kept := by
                    cases a <;> first | exact h.drop _ | exact h
                  have ht' : (s.dropped a).tasks[n]? = some t := by
                    cases a <;> exact ht
                  refine Kept.runs ?_ ht' (fun _ hc => ?_) hcareful
                  · refine hdropped.goes ht' (hrest (.error f)) ?_ ?_ ?_
                    · cases f <;> exact .inl ⟨rfl, .inl hlive⟩
                    · cases f <;> exact .inr rfl
                    · cases f <;> first | exact .inr rfl | exact .inl rfl
                  · cases f with
                    | cancelled => rfl
                    | abandoned | raised text => exact absurd (by simp [hc]) hnot
          · cases hst
  | expire gateway =>
      simp only [State.step] at hst
      split at hst
      · exact Option.some.inj hst ▸ h.drop gateway
      · cases hst
  | unrelated store changes =>
      simp only [State.step] at hst
      split at hst
      · next hchanges =>
          have hnone : s.unanswered = false := by simpa [State.careful] using hcareful
          have hstage : changes.stage = none := by
            simp only [Changes.unrelated, Bool.and_eq_true, Option.isNone_iff_eq_none] at hchanges
            exact hchanges.1.1
          refine Option.some.inj hst ▸ h.written hnone (Nat.le_of_eq (congrArg Stage.rank ?_))
          rw [Stores.stage_update, hstage, Option.getD_none]
      · cases hst
  | look store =>
      exact Option.some.inj hst ▸ h.looked rfl rfl rfl rfl (Stores.read_load s.stores store)
        (fun r hr => Stores.cached_load store hr) rfl rfl
  | surroundings timezone phone =>
      exact Option.some.inj hst ▸ h.looked rfl rfl rfl rfl rfl (fun r hr => hr) rfl rfl

end State

end Telemax.Onboarding
