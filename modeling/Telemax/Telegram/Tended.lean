import Telemax.Telegram.Bijection

/-!
# Telemax.Telegram.Tended

The tasks of the runners: each one that is not over is known to its runner, or is
awaited by a call that stops it.
-/

namespace Telemax.Telegram.Registry

/-! ## where calls are -/

/-- Some call is at such a stage. -/
def At (p : Stage → Prop) (calls : List Call) : Prop :=
  ∃ (n : Nat) (c : Call), calls[n]? = some c ∧ p c.stage

/-- A call awaits the polling task of the bridge's runner. -/
abbrev Polls (calls : List Call) (i j : Nat) : Prop :=
  At (fun stage => ∃ rest, stage = .stopPoll i j rest) calls

/-- A call awaits the intake task of the bridge's runner. -/
abbrev Intakes (calls : List Call) (i j : Nat) : Prop :=
  At (fun stage => ∃ rest, stage = .stopIntake i j rest) calls

/-- The bridge is registered, and its menu is being published. -/
abbrev Menu (calls : List Call) (i : Nat) : Prop := At (· = .menu i) calls

section
variable {p : Stage → Prop} {calls : List Call} {n : Nat} {c : Call} {stage : Stage}

theorem At.set (h : At p calls) (hc : calls[n]? = some c) :
    At p (calls.set n { c with stage }) ∨ p c.stage := by
  obtain ⟨m, d, hd, hp⟩ := h
  by_cases hm : m = n
  · obtain rfl := hm
    rw [Option.some.inj (hc.symm.trans hd)]
    exact .inr hp
  · exact .inl ⟨m, d, by rw [List.getElem?_set_ne (Ne.symm hm)]; exact hd, hp⟩

theorem At.of_set (h : At p (calls.set n { c with stage })) : At p calls ∨ p stage := by
  obtain ⟨m, d, hd, hp⟩ := h
  rcases Tasks.set_cases hd with ⟨-, rfl⟩ | ⟨-, hd⟩
  · exact .inr hp
  · exact .inl ⟨m, d, hd, hp⟩

theorem At.set_self (hc : calls[n]? = some c) (hp : p stage) :
    At p (calls.set n { c with stage }) :=
  ⟨n, _, List.getElem?_set_self (List.getElem?_eq_some_iff.mp hc).1, hp⟩

theorem at_append (hc : ¬ p c.stage) : At p (calls ++ [c]) ↔ At p calls := by
  constructor
  · rintro ⟨m, d, hd, hp⟩
    rcases Tasks.append_cases hd with ⟨-, rfl⟩ | hd
    · exact absurd hp hc
    · exact ⟨m, d, hd, hp⟩
  · rintro ⟨m, d, hd, hp⟩
    refine ⟨m, d, ?_, hp⟩
    rw [List.getElem?_append_left (List.getElem?_eq_some_iff.mp hd).1]
    exact hd

end

/-! ## the tasks of the runners -/

/-- Every task that is not over is known to its runner, or is awaited by a call that
stops it; a bridge that is not live has a runner that knows of none, but for the
intake task while the polling task is awaited. -/
structure Tended (runners : List BotRunner) (jobs : List Job) (polls intakes : Nat → Nat → Prop)
    (menu live : Nat → Prop) : Prop where
  owner : ∀ {j : Nat} {job : Job}, jobs[j]? = some job → job.live < runners.length
  task : ∀ {i j : Nat} {runner : BotRunner}, runners[i]? = some runner → runner.task = some j →
    ∃ job, jobs[j]? = some job ∧ job.live = i ∧ job.kind = .poll
  worker : ∀ {i j : Nat} {runner : BotRunner}, runners[i]? = some runner → runner.worker = some j →
    ∃ job, jobs[j]? = some job ∧ job.kind = .intake
  awaited : ∀ {i j : Nat}, intakes i j → ∃ job, jobs[j]? = some job ∧ job.kind = .intake
  poll : ∀ {j : Nat} {job : Job}, jobs[j]? = some job → job.kind = .poll → job.phase ≠ .over →
    (∃ runner, runners[job.live]? = some runner ∧ runner.task = some j ∧ job.phase = .running) ∨
      polls job.live j ∧ job.phase = .cancelled
  intake : ∀ {j : Nat} {job : Job}, jobs[j]? = some job → job.kind = .intake → job.phase ≠ .over →
    (∃ runner, runners[job.live]? = some runner ∧ runner.worker = some j) ∨ intakes job.live j
  gone : ∀ {i : Nat} {runner : BotRunner}, runners[i]? = some runner → ¬ live i →
    runner.task = none ∧ (runner.worker = none ∨ ∃ j, polls i j)
  fresh : ∀ {i : Nat} {runner : BotRunner}, menu i → runners[i]? = some runner → runner = {}

/-- The task is over. -/
def Over (jobs : List Job) (j : Nat) : Prop :=
  ∀ job, jobs[j]? = some job → job.phase = .over

namespace Tended
variable {runners : List BotRunner} {jobs : List Job} {polls intakes polls' intakes' : Nat → Nat → Prop}
  {menu live menu' live' : Nat → Prop} {i j : Nat} {runner : BotRunner} {job : Job}

theorem start : Tended [] [] polls (fun _ _ => False) menu live where
  owner h := by cases h
  task h := by cases h
  worker h := by cases h
  awaited h := h.elim
  poll h := by cases h
  intake h := by cases h
  gone h := by cases h
  fresh _ h := by cases h

/-- Calls go on. -/
theorem mono (h : Tended runners jobs polls intakes menu live)
    (hpolls : ∀ i j, polls i j → polls' i j ∨
      Over jobs j ∧ ∀ runner, runners[i]? = some runner → runner.worker = none)
    (hintakes : ∀ i j, intakes i j → intakes' i j ∨ Over jobs j)
    (hawaited : ∀ i j, intakes' i j → intakes i j ∨ ∃ job, jobs[j]? = some job ∧ job.kind = .intake)
    (hmenu : ∀ i, menu' i → menu i) (hlive : ∀ i, live i → live' i) :
    Tended runners jobs polls' intakes' menu' live' where
  owner := h.owner
  task := h.task
  worker := h.worker
  awaited h' := (hawaited _ _ h').elim h.awaited id
  poll hj hkind hover := by
    refine (h.poll hj hkind hover).imp_right fun ⟨hawait, hphase⟩ => ⟨?_, hphase⟩
    exact (hpolls _ _ hawait).resolve_right fun hdone => hover (hdone.1 _ hj)
  intake hj hkind hover := by
    refine (h.intake hj hkind hover).imp_right fun hawait => ?_
    exact (hintakes _ _ hawait).resolve_right fun hdone => hover (hdone _ hj)
  gone hr hgone := by
    obtain ⟨htask, hworker⟩ := h.gone hr fun hi => hgone (hlive _ hi)
    refine ⟨htask, hworker.elim .inl fun ⟨j, hj⟩ => ?_⟩
    exact (hpolls _ _ hj).elim (fun hj => .inr ⟨j, hj⟩) fun hdone => .inl (hdone.2 _ hr)
  fresh hmenu' := h.fresh (hmenu _ hmenu')

/-- A runner forgets tasks that are over or awaited. -/
theorem setRunner (h : Tended runners jobs polls intakes menu live)
    (hr : runners[i]? = some runner) (runner' : BotRunner)
    (htask : runner'.task = runner.task ∨ runner'.task = none ∧
      ∀ j job, runner.task = some j → jobs[j]? = some job → job.phase ≠ .running)
    (hworker : runner'.worker = runner.worker ∨ runner'.worker = none ∧
      ∀ j job, runner.worker = some j → jobs[j]? = some job → job.phase ≠ .over → intakes i j)
    (hlive : ∀ k, live k → live' k ∨
      k = i ∧ runner'.task = none ∧ (runner'.worker = none ∨ ∃ j, polls i j)) :
    Tended (runners.set i runner') jobs polls intakes menu live' where
  owner hj := by rw [List.length_set]; exact h.owner hj
  task hk := by
    rcases Tasks.set_cases hk with ⟨rfl, rfl⟩ | ⟨-, hk⟩
    · intro htask'
      rcases htask with heq | ⟨hnone, -⟩
      · exact h.task hr (heq ▸ htask')
      · rw [hnone] at htask'
        cases htask'
    · exact h.task hk
  worker hk := by
    rcases Tasks.set_cases hk with ⟨rfl, rfl⟩ | ⟨-, hk⟩
    · intro hworker'
      rcases hworker with heq | ⟨hnone, -⟩
      · exact h.worker hr (heq ▸ hworker')
      · rw [hnone] at hworker'
        cases hworker'
    · exact h.worker hk
  awaited := h.awaited
  poll {j job} hj hkind hover := by
    refine (h.poll hj hkind hover).imp_left fun ⟨r, hr', htask', hphase⟩ => ?_
    by_cases hi : i = job.live
    · obtain rfl := hi
      obtain rfl := Option.some.inj (hr.symm.trans hr')
      refine ⟨runner', List.getElem?_set_self (List.getElem?_eq_some_iff.mp hr).1, ?_, hphase⟩
      rcases htask with heq | ⟨-, hstopped⟩
      · exact heq.trans htask'
      · exact absurd hphase (hstopped j job htask' hj)
    · exact ⟨r, by rw [List.getElem?_set_ne hi]; exact hr', htask', hphase⟩
  intake {j job} hj hkind hover := by
    rcases h.intake hj hkind hover with ⟨r, hr', hworker'⟩ | hawait
    · by_cases hi : i = job.live
      · obtain rfl := hi
        obtain rfl := Option.some.inj (hr.symm.trans hr')
        rcases hworker with heq | ⟨-, hknown⟩
        · exact .inl ⟨runner', List.getElem?_set_self (List.getElem?_eq_some_iff.mp hr).1,
            heq.trans hworker'⟩
        · exact .inr (hknown j job hworker' hj hover)
      · exact .inl ⟨r, by rw [List.getElem?_set_ne hi]; exact hr', hworker'⟩
    · exact .inr hawait
  gone {k r} hk hgone := by
    rcases Tasks.set_cases hk with ⟨rfl, rfl⟩ | ⟨hne, hk⟩
    · by_cases hk' : live k
      · exact ((hlive k hk').resolve_left hgone).2
      · obtain ⟨hidle, hwaits⟩ := h.gone hr hk'
        constructor
        · rcases htask with heq | ⟨hnone, -⟩
          · exact heq.trans hidle
          · exact hnone
        · rcases hworker with heq | ⟨hnone, -⟩
          · exact hwaits.imp_left heq.trans
          · exact .inl hnone
    · refine h.gone hk fun hlive' => ?_
      exact (hlive k hlive').elim hgone fun hi => hne hi.1
  fresh {k r} hmenu hk := by
    rcases Tasks.set_cases hk with ⟨rfl, rfl⟩ | ⟨-, hk⟩
    · have hfresh := h.fresh hmenu hr
      obtain ⟨task, worker⟩ := r
      obtain rfl : task = none := by
        rcases htask with heq | ⟨hnone, -⟩
        · rw [hfresh] at heq
          exact heq
        · exact hnone
      obtain rfl : worker = none := by
        rcases hworker with heq | ⟨hnone, -⟩
        · rw [hfresh] at heq
          exact heq
        · exact hnone
      rfl
    · exact h.fresh hmenu hk

/-- A task goes on to its end. -/
theorem setJob (h : Tended runners jobs polls intakes menu live) (hj : jobs[j]? = some job)
    (hrun : job.phase ≠ .over) {phase : Phase}
    (hphase : phase = .over ∨ phase = .cancelled ∧ (job.kind = .intake ∨ polls job.live j)) :
    Tended runners (jobs.set j { job with phase }) polls intakes menu live := by
  have same {k : Nat} {job' : Job} (hk : jobs[k]? = some job') :
      ∃ job'', (jobs.set j { job with phase })[k]? = some job'' ∧
        job''.live = job'.live ∧ job''.kind = job'.kind := by
    by_cases hkj : k = j
    · obtain rfl := hkj
      obtain rfl := Option.some.inj (hj.symm.trans hk)
      exact ⟨_, List.getElem?_set_self (List.getElem?_eq_some_iff.mp hj).1, rfl, rfl⟩
    · exact ⟨job', by rw [List.getElem?_set_ne (Ne.symm hkj)]; exact hk, rfl, rfl⟩
  refine ⟨fun hk => ?_, fun hr htask => ?_, fun hr hworker => ?_, fun hawait => ?_,
    fun hk hkind hover => ?_, fun hk hkind hover => ?_, h.gone, h.fresh⟩
  · rcases Tasks.set_cases hk with ⟨-, rfl⟩ | ⟨-, hk⟩
    · exact (h.owner hj :)
    · exact h.owner hk
  · obtain ⟨job', hk, hlive, hkind⟩ := h.task hr htask
    obtain ⟨job'', hk', hlive', hkind'⟩ := same hk
    exact ⟨job'', hk', hlive'.trans hlive, hkind'.trans hkind⟩
  · obtain ⟨job', hk, hkind⟩ := h.worker hr hworker
    obtain ⟨job'', hk', -, hkind'⟩ := same hk
    exact ⟨job'', hk', hkind'.trans hkind⟩
  · obtain ⟨job', hk, hkind⟩ := h.awaited hawait
    obtain ⟨job'', hk', -, hkind'⟩ := same hk
    exact ⟨job'', hk', hkind'.trans hkind⟩
  · rcases Tasks.set_cases hk with ⟨rfl, rfl⟩ | ⟨-, hk⟩
    · obtain ⟨hcancelled, hwho⟩ := hphase.resolve_left hover
      have hpolls : polls job.live _ := hwho.resolve_left (by rw [hkind]; simp)
      exact .inr ⟨hpolls, hcancelled⟩
    · exact h.poll hk hkind hover
  · rcases Tasks.set_cases hk with ⟨rfl, rfl⟩ | ⟨-, hk⟩
    · exact (h.intake hj hkind hrun :)
    · exact h.intake hk hkind hover

/-- A bridge comes up. -/
theorem register (h : Tended runners jobs polls intakes menu live)
    (hmenu : ∀ i, menu' i → menu i ∨ i = runners.length)
    (hlive : ∀ i, i < runners.length → live i → live' i) :
    Tended (runners ++ [({} : BotRunner)]) jobs polls intakes menu' live' where
  owner hj := by
    rw [List.length_append]
    exact Nat.lt_add_right _ (h.owner hj)
  task hk htask := by
    rcases Tasks.append_cases hk with ⟨-, rfl⟩ | hk
    · cases htask
    · exact h.task hk htask
  worker hk hworker := by
    rcases Tasks.append_cases hk with ⟨-, rfl⟩ | hk
    · cases hworker
    · exact h.worker hk hworker
  awaited := h.awaited
  poll hj hkind hover := by
    refine (h.poll hj hkind hover).imp_left fun ⟨r, hr, htask⟩ => ⟨r, ?_, htask⟩
    rw [List.getElem?_append_left (h.owner hj)]
    exact hr
  intake hj hkind hover := by
    refine (h.intake hj hkind hover).imp_left fun ⟨r, hr, hworker⟩ => ⟨r, ?_, hworker⟩
    rw [List.getElem?_append_left (h.owner hj)]
    exact hr
  gone hk hgone := by
    rcases Tasks.append_cases hk with ⟨-, rfl⟩ | hk
    · exact ⟨rfl, .inl rfl⟩
    · exact h.gone hk fun hi => hgone (hlive _ (List.getElem?_eq_some_iff.mp hk).1 hi)
  fresh {i r} hmenu' hk := by
    rcases Tasks.append_cases hk with ⟨-, rfl⟩ | hk
    · rfl
    · have hlt := (List.getElem?_eq_some_iff.mp hk).1
      exact h.fresh ((hmenu i hmenu').resolve_right (Nat.ne_of_lt hlt)) hk

/-- The runner of a live bridge gets a task. -/
theorem addJob (h : Tended runners jobs polls intakes menu live) (hr : runners[i]? = some runner)
    (hlive : live i) (hmenu : ∀ k, menu' k → menu k ∧ k ≠ i) (kind : Kind) (runner' : BotRunner)
    (hnew : kind = .poll ∧ runner.task = none ∧ runner' = { runner with task := jobs.length } ∨
      kind = .intake ∧ runner.worker = none ∧ runner' = { runner with worker := jobs.length }) :
    Tended (runners.set i runner') (jobs ++ [Job.mk i kind .running]) polls intakes menu' live := by
  have hlt := (List.getElem?_eq_some_iff.mp hr).1
  have old {k : Nat} {job : Job} (hk : jobs[k]? = some job) :
      (jobs ++ [Job.mk i kind .running])[k]? = some job := by
    rw [List.getElem?_append_left (List.getElem?_eq_some_iff.mp hk).1]
    exact hk
  have hset : (runners.set i runner')[i]? = some runner' := List.getElem?_set_self hlt
  refine ⟨fun hk => ?_, fun {k m r} hk htask => ?_, fun {k m r} hk hworker => ?_, fun hawait => ?_,
    fun {m job} hk hkind hover => ?_, fun {m job} hk hkind hover => ?_, fun {k r} hk hgone => ?_,
    fun {k r} hmenu' hk => ?_⟩
  · rw [List.length_set]
    rcases Tasks.append_cases hk with ⟨-, rfl⟩ | hk
    · exact hlt
    · exact h.owner hk
  · rcases Tasks.set_cases hk with ⟨rfl, rfl⟩ | ⟨-, hk⟩
    · rcases hnew with ⟨rfl, -, rfl⟩ | ⟨-, -, rfl⟩
      · obtain rfl := Option.some.inj htask
        exact ⟨_, List.getElem?_concat_length, rfl, rfl⟩
      · obtain ⟨job, hj, hjob⟩ := h.task hr htask
        exact ⟨job, old hj, hjob⟩
    · obtain ⟨job, hj, hjob⟩ := h.task hk htask
      exact ⟨job, old hj, hjob⟩
  · rcases Tasks.set_cases hk with ⟨rfl, rfl⟩ | ⟨-, hk⟩
    · rcases hnew with ⟨-, -, rfl⟩ | ⟨rfl, -, rfl⟩
      · obtain ⟨job, hj, hjob⟩ := h.worker hr hworker
        exact ⟨job, old hj, hjob⟩
      · obtain rfl := Option.some.inj hworker
        exact ⟨_, List.getElem?_concat_length, rfl⟩
    · obtain ⟨job, hj, hjob⟩ := h.worker hk hworker
      exact ⟨job, old hj, hjob⟩
  · obtain ⟨job, hj, hjob⟩ := h.awaited hawait
    exact ⟨job, old hj, hjob⟩
  · rcases Tasks.append_cases hk with ⟨rfl, rfl⟩ | hk
    · obtain rfl : kind = .poll := hkind
      obtain ⟨-, -, rfl⟩ := hnew.resolve_right (by simp)
      exact .inl ⟨_, hset, rfl, rfl⟩
    · refine (h.poll hk hkind hover).imp_left fun ⟨r, hr', htask, hphase⟩ => ?_
      by_cases hi : i = job.live
      · obtain rfl := hi
        obtain rfl := Option.some.inj (hr.symm.trans hr')
        rcases hnew with ⟨-, hnone, -⟩ | ⟨-, -, rfl⟩
        · rw [hnone] at htask
          cases htask
        · exact ⟨_, hset, htask, hphase⟩
      · exact ⟨r, by rw [List.getElem?_set_ne hi]; exact hr', htask, hphase⟩
  · rcases Tasks.append_cases hk with ⟨rfl, rfl⟩ | hk
    · obtain rfl : kind = .intake := hkind
      obtain ⟨-, -, rfl⟩ := hnew.resolve_left (by simp)
      exact .inl ⟨_, hset, rfl⟩
    · refine (h.intake hk hkind hover).imp_left fun ⟨r, hr', hworker⟩ => ?_
      by_cases hi : i = job.live
      · obtain rfl := hi
        obtain rfl := Option.some.inj (hr.symm.trans hr')
        rcases hnew with ⟨-, -, rfl⟩ | ⟨-, hnone, -⟩
        · exact ⟨_, hset, hworker⟩
        · rw [hnone] at hworker
          cases hworker
      · exact ⟨r, by rw [List.getElem?_set_ne hi]; exact hr', hworker⟩
  · rcases Tasks.set_cases hk with ⟨rfl, rfl⟩ | ⟨-, hk⟩
    · exact absurd hlive hgone
    · exact h.gone hk hgone
  · obtain ⟨hk', hne⟩ := hmenu k hmenu'
    rcases Tasks.set_cases hk with ⟨rfl, -⟩ | ⟨-, hk⟩
    · exact absurd rfl hne
    · exact h.fresh hk' hk

end Tended

end Telemax.Telegram.Registry
