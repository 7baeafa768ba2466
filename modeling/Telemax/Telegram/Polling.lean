import Telemax.Telegram.Tended

/-!
# Telemax.Telegram.Polling

Which runners run: where no bridge is removed while its runner is yet to be started,
a runner polls only while its bridge is in the maps, and every task of a bridge that
is not is over, or awaited by the call that removed it.
-/

namespace Telemax.Telegram.Registry

/-! ## the state -/

/-- The bridge is in the maps. -/
def InMaps (m : Maps) (lives : List LiveBridge) (i : Nat) : Prop :=
  ∃ live, lives[i]? = some live ∧ m.byName.get? live.name = some i

structure Tidy (s : State) : Prop where
  /-- The call that brought a bridge up has not failed. -/
  owned : ∀ {i : Nat} {live : LiveBridge}, s.lives[i]? = some live →
    ∃ c, s.calls[live.owner]? = some c ∧ (c.stage = .menu i ∨ c.stage = .returned)
  menus : ∀ {n i : Nat} {c : Call}, s.calls[n]? = some c → c.stage = .menu i →
    ∃ live, s.lives[i]? = some live ∧ live.owner = n
  tended : Tended s.runners s.jobs (Polls s.calls) (Intakes s.calls) (Menu s.calls)
    (InMaps s.maps s.lives)

/-- No call has come to publish a menu. -/
def Calm (before after : List Call) : Prop :=
  ∀ {n i : Nat} {c : Call}, after[n]? = some c → c.stage = .menu i → before[n]? = some c

/-- A stage that is nothing to any runner. -/
def Stage.quiet : Stage → Bool
  | .menu _ | .stopPoll .. | .stopIntake .. => false
  | _ => true

section
variable {cfg : Config} {s : State} {n i : Nat} {c : Call} {stage : Stage} {runner : BotRunner}

theorem Stage.quiet_iff (h : stage.quiet = true) :
    (∀ i, stage ≠ .menu i) ∧ (∀ i j, ¬ ∃ rest, stage = .stopPoll i j rest) ∧
      ∀ i j, ¬ ∃ rest, stage = .stopIntake i j rest := by
  refine ⟨?_, ?_, ?_⟩
  · rintro i rfl
    cases h
  · rintro i j ⟨rest, rfl⟩
    cases h
  · rintro i j ⟨rest, rfl⟩
    cases h

theorem unended_eq_some {o : Option Nat} {j : Nat} {job : Job} (h : s.unended o = some (j, job)) :
    o = some j ∧ s.jobs[j]? = some job ∧ job.phase ≠ .over := by
  obtain ⟨k, hk, hbind⟩ := Option.bind_eq_some_iff.mp h
  obtain ⟨job', hj, hsome⟩ := Option.bind_eq_some_iff.mp hbind
  split at hsome
  · cases hsome
  · rename_i hover
    obtain ⟨rfl, rfl⟩ := Prod.mk.inj (Option.some.inj hsome)
    exact ⟨hk, hj, hover⟩

theorem unended_eq_none {o : Option Nat} (h : s.unended o = none) {j : Nat} {job : Job}
    (ho : o = some j) (hj : s.jobs[j]? = some job) : job.phase = .over := by
  subst ho
  simpa [State.unended, hj] using h

theorem Calm.set (hstage : ∀ i, stage ≠ .menu i) : Calm s.calls (s.calls.set n { c with stage }) := by
  intro m i d hd hmenu
  rcases Tasks.set_cases hd with ⟨-, rfl⟩ | ⟨-, hd⟩
  · exact absurd hmenu (hstage i)
  · exact hd

/-- One call goes on, and not to a bridge's menu. -/
def Moves (calls : List Call) (n : Nat) (c : Call) (after : List Call) : Prop :=
  ∃ stage, (∀ i, stage ≠ .menu i) ∧ after = calls.set n { c with stage }

theorem Moves.calm {after : List Call} (h : Moves s.calls n c after) : Calm s.calls after := by
  obtain ⟨stage, hstage, rfl⟩ := h
  exact Calm.set hstage

theorem moves_stopIntake (i : Nat) (runner : BotRunner) (rest : List String) :
    Moves s.calls n c (s.stopIntake n c i runner rest).calls := by
  unfold State.stopIntake
  split <;> exact ⟨_, by simp, rfl⟩

theorem moves_stop (i : Nat) (runner : BotRunner) (rest : List String) :
    Moves s.calls n c (s.stop n c i runner rest).calls := by
  unfold State.stop
  split
  · exact ⟨_, by simp, rfl⟩
  · exact moves_stopIntake i _ rest

theorem moves_remove (names : List String) : Moves s.calls n c (s.remove n c names).calls := by
  induction names generalizing s with
  | nil => exact ⟨_, by simp, rfl⟩
  | cons name rest ih =>
    unfold State.remove
    split
    · exact ⟨_, by simp, rfl⟩
    · split
      · exact ih
      · exact moves_stop _ _ _

theorem moves_removeLocked (name : String) (rest : List String) :
    Moves s.calls n c (s.removeLocked n c name rest).calls := by
  unfold State.removeLocked
  split
  · exact moves_remove (s := s.release) rest
  · exact moves_stop _ _ _

theorem moves_addLocked (bridge : ResolvedBridge) :
    Moves s.calls n c (s.addLocked n c bridge).calls := by
  unfold State.addLocked
  split
  · exact ⟨_, by simp, rfl⟩
  split
  · exact ⟨_, by simp, rfl⟩
  split <;> exact ⟨_, by simp, rfl⟩

/-- Who is taken out of the maps is the only one. -/
theorem inMaps_pop {m : Maps} {lives : List LiveBridge} {name : String} {live : LiveBridge}
    (hname : m.byName.get? name = some i) {k : Nat} (h : InMaps m lives k) :
    InMaps (m.pop name live) lives k ∨ k = i := by
  obtain ⟨other, hother, hk⟩ := h
  by_cases heq : other.name = name
  · rw [heq, hname] at hk
    exact .inr (Option.some.inj hk).symm
  · refine .inl ⟨other, hother, ?_⟩
    rw [Maps.pop, Dict.get?_erase, if_neg heq]
    exact hk

namespace Tidy

/-- A call whose bridge, if it has one, is up goes on. -/
theorem owned_set (h : Tidy s)
    (hown : ∀ (i : Nat) (live : LiveBridge), s.lives[i]? = some live → live.owner ≠ n) {live : LiveBridge} (hlive : s.lives[i]? = some live) :
    ∃ d, (s.calls.set n { c with stage })[live.owner]? = some d ∧
      (d.stage = .menu i ∨ d.stage = .returned) := by
  obtain ⟨d, hd, hstage⟩ := h.owned hlive
  refine ⟨d, ?_, hstage⟩
  rw [List.getElem?_set_ne (Ne.symm (hown i live hlive))]
  exact hd

theorem menus_set (h : Tidy s) (hstage : ∀ i, stage ≠ .menu i) {m : Nat} {d : Call}
    (hd : (s.calls.set n { c with stage })[m]? = some d) (hmenu : d.stage = .menu i) :
    ∃ live, s.lives[i]? = some live ∧ live.owner = m :=
  h.menus (Calm.set hstage hd hmenu) hmenu

/-- A call that is not at a bridge's menu has brought none up. -/
theorem not_owner (h : Tidy s) (hc : s.calls[n]? = some c) (hmenu : ∀ i, c.stage ≠ .menu i)
    (hreturned : c.stage ≠ .returned) (i : Nat) (live : LiveBridge)
    (hlive : s.lives[i]? = some live) : live.owner ≠ n := by
  rintro rfl
  obtain ⟨d, hd, hstage⟩ := h.owned hlive
  obtain rfl := Option.some.inj (hc.symm.trans hd)
  exact hstage.elim (hmenu i) hreturned

theorem setStage (h : Tidy s) (hc : s.calls[n]? = some c) (hquiet : c.stage.quiet = true)
    (hown : ∀ (i : Nat) (live : LiveBridge), s.lives[i]? = some live → live.owner ≠ n) (hstage : stage.quiet = true) :
    Tidy (s.setStage n c stage) := by
  obtain ⟨hmenu, hpoll, hintake⟩ := Stage.quiet_iff hquiet
  obtain ⟨hmenu', hpoll', hintake'⟩ := Stage.quiet_iff hstage
  refine ⟨h.owned_set hown, h.menus_set hmenu', h.tended.mono (fun i j hat => ?_)
    (fun i j hat => ?_) (fun i j hat => ?_) (fun i hat => ?_) fun i hi => hi⟩
  · exact .inl ((hat.set hc).resolve_right (hpoll i j))
  · exact .inl ((hat.set hc).resolve_right (hintake i j))
  · exact .inl (hat.of_set.resolve_right (hintake' i j))
  · exact hat.of_set.resolve_right (hmenu' i)

/-- `stop` from where the polling task is over, with the bridge taken out of the maps or
not. -/
theorem stopIntake (h : Tidy s) (hc : s.calls[n]? = some c)
    (hintake : ∀ i j, ¬ ∃ rest, c.stage = .stopIntake i j rest)
    (hpoll : ∀ a b, (∃ rest, c.stage = .stopPoll a b rest) → a = i ∧ Over s.jobs b)
    (hown : ∀ (i : Nat) (live : LiveBridge), s.lives[i]? = some live → live.owner ≠ n)
    (hr : s.runners[i]? = some runner) {task : Option Nat}
    (htask : task = runner.task ∨ task = none ∧
      ∀ j job, runner.task = some j → s.jobs[j]? = some job → job.phase ≠ .running)
    {m : Maps} {lock : AsyncLock.Lock}
    (hlive : ∀ k, InMaps s.maps s.lives k → InMaps m s.lives k ∨ k = i ∧ task = none)
    (rest : List String) :
    Tidy ({ s with maps := m, lock }.stopIntake n c i { runner with task } rest) := by
  -- the runner forgets its intake task, and the call goes on
  have forget {stage : Stage} (hmenu' : ∀ i, stage ≠ .menu i)
      (hpoll' : ∀ i j, ¬ ∃ rest, stage = .stopPoll i j rest)
      (hawaited : ∀ a b, (∃ rest, stage = .stopIntake a b rest) →
        ∃ job, s.jobs[b]? = some job ∧ job.kind = .intake)
      (hknown : ∀ j job, runner.worker = some j → s.jobs[j]? = some job → job.phase ≠ .over →
        ∃ rest, stage = .stopIntake i j rest) :
      Tidy (({ s with maps := m, lock }.setRunner i ⟨task, none⟩).setStage n c stage) := by
    refine ⟨h.owned_set hown, h.menus_set hmenu', ?_⟩
    have hbefore : Tended s.runners s.jobs (Polls s.calls)
        (Intakes (s.calls.set n { c with stage })) (Menu (s.calls.set n { c with stage }))
        (InMaps s.maps s.lives) :=
      h.tended.mono (fun a b hat => .inl hat)
        (fun a b hat => .inl ((hat.set hc).resolve_right (hintake a b)))
        (fun a b hat => hat.of_set.imp_right (hawaited a b))
        (fun a hat => hat.of_set.resolve_right (hmenu' a)) fun a ha => ha
    have hafter : Tended (s.runners.set i ⟨task, none⟩) s.jobs (Polls s.calls)
        (Intakes (s.calls.set n { c with stage })) (Menu (s.calls.set n { c with stage }))
        (InMaps m s.lives) :=
      hbefore.setRunner hr _ htask
        (.inr ⟨rfl, fun j job hw hj hover => At.set_self hc (hknown j job hw hj hover)⟩)
        (fun k hk => (hlive k hk).imp_right fun hk => ⟨hk.1, hk.2, .inl rfl⟩)
    refine hafter.mono (fun a b hat => ?_) (fun a b hat => .inl hat) (fun a b hat => .inl hat)
      (fun a hat => hat) fun a ha => ha
    refine (hat.set hc).imp_right fun hstage => ?_
    obtain ⟨rfl, hover⟩ := hpoll a b hstage
    refine ⟨hover, fun r hr' => ?_⟩
    rw [List.getElem?_set_self (List.getElem?_eq_some_iff.mp hr).1] at hr'
    rw [← Option.some.inj hr']
  unfold State.stopIntake
  split
  · rename_i j job hunended
    obtain ⟨hworker, hj, -⟩ := unended_eq_some hunended
    refine forget (by simp) (by simp) ?_ ?_
    · rintro a b ⟨rest', heq⟩
      obtain ⟨rfl, rfl, rfl⟩ : i = a ∧ j = b ∧ rest = rest' := by simpa using heq
      exact h.tended.worker hr hworker
    · intro j' job' hworker' _ _
      obtain rfl := Option.some.inj (hworker.symm.trans hworker')
      exact ⟨rest, rfl⟩
  · rename_i hunended
    refine forget (by simp) (by simp) (by simp) fun j job hworker hj hover => ?_
    exact absurd (unended_eq_none hunended hworker hj) hover

theorem stop (h : Tidy s) (hc : s.calls[n]? = some c) (hquiet : c.stage.quiet = true)
    (hown : ∀ (i : Nat) (live : LiveBridge), s.lives[i]? = some live → live.owner ≠ n)
    (hr : s.runners[i]? = some runner) {m : Maps} {lock : AsyncLock.Lock}
    (hlive : ∀ k, InMaps s.maps s.lives k → InMaps m s.lives k ∨ k = i) (rest : List String) :
    Tidy ({ s with maps := m, lock }.stop n c i runner rest) := by
  obtain ⟨-, hpoll, hintake⟩ := Stage.quiet_iff hquiet
  unfold State.stop
  split
  · rename_i j job hunended
    obtain ⟨htask, hj, hover⟩ := unended_eq_some hunended
    obtain ⟨job', hj', hjob, hkind⟩ := h.tended.task hr htask
    obtain rfl := Option.some.inj ((hj : s.jobs[j]? = some job).symm.trans hj')
    refine ⟨h.owned_set hown, h.menus_set (by simp), ?_⟩
    have hnew : Polls (s.calls.set n { c with stage := .stopPoll i j rest }) i j :=
      At.set_self hc ⟨rest, rfl⟩
    have hbefore : Tended s.runners s.jobs
        (Polls (s.calls.set n { c with stage := .stopPoll i j rest }))
        (Intakes (s.calls.set n { c with stage := .stopPoll i j rest }))
        (Menu (s.calls.set n { c with stage := .stopPoll i j rest })) (InMaps s.maps s.lives) :=
      h.tended.mono (fun a b hat => .inl ((hat.set hc).resolve_right (hpoll a b)))
        (fun a b hat => .inl ((hat.set hc).resolve_right (hintake a b)))
        (fun a b hat => .inl (hat.of_set.resolve_right (by simp)))
        (fun a hat => hat.of_set.resolve_right (by simp)) fun a ha => ha
    have hcancelled := hbefore.setJob hj hover (.inr ⟨rfl, .inr (hjob ▸ hnew)⟩)
    refine hcancelled.setRunner hr _ (.inr ⟨rfl, ?_⟩) (.inl rfl) fun k hk => ?_
    · -- the task it knew of has just been cancelled
      intro j' job' htask' hj'
      obtain rfl := Option.some.inj (htask.symm.trans htask')
      rw [List.getElem?_set_self (List.getElem?_eq_some_iff.mp hj).1] at hj'
      rw [← Option.some.inj hj']
      simp
    · exact (hlive k hk).imp_right fun hk => ⟨hk, rfl, .inr ⟨j, hnew⟩⟩
  · rename_i hunended
    refine h.stopIntake hc hintake (fun a b hat => absurd hat (hpoll a b)) hown hr
      (.inr ⟨rfl, fun j job htask hj hrun => ?_⟩)
      (fun k hk => (hlive k hk).imp_right fun hk => ⟨hk, rfl⟩) rest
    have hover := unended_eq_none hunended htask hj
    rw [hrun] at hover
    cases hover

theorem setLock (h : Tidy s) (lock : AsyncLock.Lock) (ticket : Nat) :
    Tidy { s with lock, ticket } :=
  ⟨h.owned, h.menus, h.tended⟩

/-- A bridge is taken out of the maps, and its runner stopped. -/
theorem dropped (h : Tidy s) (hc : s.calls[n]? = some c) (hquiet : c.stage.quiet = true)
    (hown : ∀ (i : Nat) (live : LiveBridge), s.lives[i]? = some live → live.owner ≠ n)
    {name : String} {live : LiveBridge} (hdrop : s.dropped name = some (i, live, runner))
    (lock : AsyncLock.Lock) (rest : List String) :
    Tidy ({ s with maps := s.maps.pop name live, lock }.stop n c i runner rest) := by
  obtain ⟨hname, -, hr⟩ := dropped_eq hdrop
  exact h.stop hc hquiet hown hr (fun k hk => inMaps_pop hname hk) rest

theorem remove (h : Tidy s) (hc : s.calls[n]? = some c) (hquiet : c.stage.quiet = true)
    (hown : ∀ (i : Nat) (live : LiveBridge), s.lives[i]? = some live → live.owner ≠ n)
    (names : List String) : Tidy (s.remove n c names) := by
  induction names generalizing s with
  | nil => exact h.setStage hc hquiet hown rfl
  | cons name rest ih =>
    unfold State.remove
    cases hlock : s.lock.acquire s.ticket with
    | mk lock got =>
      cases got with
      | false => exact (h.setLock _ _).setStage hc hquiet hown rfl
      | true =>
        simp only
        split
        · exact ih (h.setLock _ _) hc hown
        · rename_i i live runner hdrop
          exact h.dropped hc hquiet hown hdrop _ rest

theorem removeLocked (h : Tidy s) (hc : s.calls[n]? = some c) (hquiet : c.stage.quiet = true)
    (hown : ∀ (i : Nat) (live : LiveBridge), s.lives[i]? = some live → live.owner ≠ n)
    (lock : AsyncLock.Lock) (name : String) (rest : List String) :
    Tidy ({ s with lock }.removeLocked n c name rest) := by
  unfold State.removeLocked
  split
  · exact (h.setLock lock.release s.ticket).remove hc hquiet hown rest
  · rename_i i live runner hdrop
    exact h.dropped hc hquiet hown hdrop _ rest

theorem addLocked (h : Tidy s) (hc : s.calls[n]? = some c) (hquiet : c.stage.quiet = true)
    (hown : ∀ (i : Nat) (live : LiveBridge), s.lives[i]? = some live → live.owner ≠ n)
    (lock : AsyncLock.Lock) (bridge : ResolvedBridge) :
    Tidy ({ s with lock }.addLocked n c bridge) := by
  have hfail (fault : Fault) : Tidy ({ s with lock }.fail n c fault) :=
    (h.setLock _ _).setStage hc hquiet hown rfl
  unfold State.addLocked
  split
  · exact hfail _
  split
  · exact hfail _
  split
  · exact (h.setLock _ _).setStage hc hquiet hown rfl
  · exact hfail _

/-- A bridge is registered, for the call that asked who its bot is. -/
theorem register (h : Tidy s) (hk : Kept cfg s) (hc : s.calls[n]? = some c)
    (hgetMe : c.stage = .getMe) {live : LiveBridge} (howner : live.owner = n)
    (hname : s.maps.byName.get? live.name = none) (lock : AsyncLock.Lock) :
    Tidy ({ s with
      lock
      maps := s.maps.register live s.lives.length
      lives := s.lives ++ [live]
      runners := s.runners ++ [({} : BotRunner)] }.setStage n c (.menu s.lives.length)) := by
  have hlt := (List.getElem?_eq_some_iff.mp hc).1
  have hown := h.not_owner hc (by simp [hgetMe]) (by simp [hgetMe])
  have old {k : Nat} {other : LiveBridge} (hother : s.lives[k]? = some other) :
      (s.lives ++ [live])[k]? = some other := by
    rw [List.getElem?_append_left (List.getElem?_eq_some_iff.mp hother).1]
    exact hother
  refine ⟨fun {i live'} hlive => ?_, fun {m i d} hd hmenu => ?_, ?_⟩
  · rcases Tasks.append_cases hlive with ⟨rfl, rfl⟩ | hlive
    · exact ⟨_, by rw [howner]; exact List.getElem?_set_self hlt, .inl rfl⟩
    · exact h.owned_set hown hlive
  · rcases Tasks.set_cases hd with ⟨rfl, rfl⟩ | ⟨-, hd⟩
    · obtain rfl : s.lives.length = i := by simpa using hmenu
      exact ⟨live, List.getElem?_concat_length, howner⟩
    · obtain ⟨live', hlive', howner'⟩ := h.menus hd hmenu
      exact ⟨live', old hlive', howner'⟩
  · have hcalls : Tended s.runners s.jobs
        (Polls (s.calls.set n { c with stage := .menu s.lives.length }))
        (Intakes (s.calls.set n { c with stage := .menu s.lives.length })) (Menu s.calls)
        (InMaps s.maps s.lives) :=
      h.tended.mono (fun a b hat => .inl ((hat.set hc).resolve_right (by simp [hgetMe])))
        (fun a b hat => .inl ((hat.set hc).resolve_right (by simp [hgetMe])))
        (fun a b hat => .inl (hat.of_set.resolve_right (by simp)))
        (fun a hat => hat) fun a ha => ha
    refine hcalls.register (fun a hat => ?_) fun a _ ⟨other, hother, hin⟩ => ?_
    · refine hat.of_set.imp_right fun hmenu => ?_
      obtain rfl : s.lives.length = a := by simpa using hmenu
      exact hk.size.symm
    · refine ⟨other, old hother, ?_⟩
      show (s.maps.byName.insert live.name s.lives.length).get? other.name = some a
      rw [Dict.get?_insert, if_neg]
      · exact hin
      · intro heq
        rw [heq, hname] at hin
        cases hin

/-- The call that brought a bridge up returns. -/
theorem owned_returned (h : Tidy s) (hc : s.calls[n]? = some c) {k : Nat} {live : LiveBridge}
    (hlive : s.lives[k]? = some live) :
    ∃ d, (s.calls.set n { c with stage := .returned })[live.owner]? = some d ∧
      (d.stage = .menu k ∨ d.stage = .returned) := by
  by_cases hn : n = live.owner
  · exact ⟨_, by rw [← hn]; exact List.getElem?_set_self (List.getElem?_eq_some_iff.mp hc).1,
      .inr rfl⟩
  · obtain ⟨d, hd, hstage⟩ := h.owned hlive
    exact ⟨d, by rw [List.getElem?_set_ne hn]; exact hd, hstage⟩

/-- Only this call is at the bridge's menu. -/
theorem menu_of_set (h : Tidy s) (hc : s.calls[n]? = some c) (hmenu : c.stage = .menu i)
    {k : Nat} (hat : Menu (s.calls.set n { c with stage := .returned }) k) :
    Menu s.calls k ∧ k ≠ i := by
  obtain ⟨m, d, hd, hk⟩ := hat
  rcases Tasks.set_cases hd with ⟨-, rfl⟩ | ⟨hne, hd⟩
  · cases hk
  · refine ⟨⟨m, d, hd, hk⟩, ?_⟩
    rintro rfl
    obtain ⟨live, hlive, rfl⟩ := h.menus hd hk
    obtain ⟨live', hlive', rfl⟩ := h.menus hc hmenu
    exact hne (congrArg _ (Option.some.inj (hlive.symm.trans hlive')))

theorem tended_returned (h : Tidy s) (hc : s.calls[n]? = some c) (hmenu : c.stage = .menu i)
    {menu : Nat → Prop} (hat : ∀ k, menu k → Menu s.calls k) :
    Tended s.runners s.jobs (Polls (s.calls.set n { c with stage := .returned }))
      (Intakes (s.calls.set n { c with stage := .returned })) menu (InMaps s.maps s.lives) :=
  h.tended.mono (fun a b hat => .inl ((hat.set hc).resolve_right (by simp [hmenu])))
    (fun a b hat => .inl ((hat.set hc).resolve_right (by simp [hmenu])))
    (fun a b hat => .inl (hat.of_set.resolve_right (by simp))) hat fun a ha => ha

theorem returned (h : Tidy s) (hc : s.calls[n]? = some c) (hmenu : c.stage = .menu i) :
    Tidy (s.setStage n c .returned) :=
  ⟨h.owned_returned hc, h.menus_set (by simp),
    h.tended_returned hc hmenu fun _ hat => (h.menu_of_set hc hmenu hat).1⟩

theorem startRunner (h : Tidy s) (hc : s.calls[n]? = some c) (hmenu : c.stage = .menu i)
    (hin : InMaps s.maps s.lives i) (hr : s.runners[i]? = some runner) :
    Tidy ((s.startRunner cfg i runner).setStage n c .returned) := by
  obtain rfl : runner = {} := h.tended.fresh ⟨n, c, hc, hmenu⟩ hr
  have hmenus (k : Nat) : Menu (s.calls.set n { c with stage := .returned }) k →
      Menu s.calls k ∧ k ≠ i := h.menu_of_set hc hmenu
  have hpoll := (h.tended_returned hc hmenu fun k hat => hat).addJob hr hin hmenus .poll
    ⟨some s.jobs.length, none⟩ (.inl ⟨rfl, rfl, rfl⟩)
  unfold State.startRunner
  rw [if_neg (by simp [State.unended])]
  split
  · have hlt := (List.getElem?_eq_some_iff.mp hr).1
    have hboth := hpoll.addJob (List.getElem?_set_self hlt) hin
      (fun k hat => ⟨hat, (hmenus k hat).2⟩) .intake
      ⟨some s.jobs.length, some (s.jobs.length + 1)⟩ (.inr ⟨rfl, rfl, by simp⟩)
    rw [List.set_set] at hboth
    exact ⟨h.owned_returned hc, h.menus_set (by simp), hboth⟩
  · exact ⟨h.owned_returned hc, h.menus_set (by simp), hpoll⟩

theorem start : Tidy (system cfg).start where
  owned h := by cases h
  menus h := by cases h
  tended := by
    refine Tended.start.mono (fun _ _ h => .inl h) (fun _ _ h => h.elim) (fun _ _ h => ?_)
      (fun _ h => h) fun _ h => h
    obtain ⟨n, c, hc, -⟩ := h
    cases hc

theorem call (h : Tidy s) (program : Program) : Tidy (s.call program) := by
  have happended : Tidy { s with calls := s.calls ++ [⟨program, .returned⟩] } := by
    refine ⟨fun hlive => ?_, fun hd hmenu => ?_, h.tended.mono (fun _ _ hat => .inl ?_)
      (fun _ _ hat => .inl ?_) (fun _ _ hat => .inl ?_) (fun _ hat => ?_) fun _ hi => hi⟩
    · obtain ⟨c, hc, hstage⟩ := h.owned hlive
      refine ⟨c, ?_, hstage⟩
      rw [List.getElem?_append_left (List.getElem?_eq_some_iff.mp hc).1]
      exact hc
    · rcases Tasks.append_cases hd with ⟨-, rfl⟩ | hd
      · cases hmenu
      · exact h.menus hd hmenu
    · exact (at_append (by simp)).mpr hat
    · exact (at_append (by simp)).mpr hat
    · exact (at_append (by simp)).mp hat
    · exact (at_append (by simp)).mp hat
  have hc : (s.calls ++ [⟨program, .returned⟩])[s.calls.length]? = some ⟨program, .returned⟩ :=
    List.getElem?_concat_length
  have hown (i : Nat) (live : LiveBridge) (hlive : s.lives[i]? = some live) :
      live.owner ≠ s.calls.length := by
    obtain ⟨c, hc, -⟩ := h.owned hlive
    exact Nat.ne_of_lt (List.getElem?_eq_some_iff.mp hc).1
  unfold State.call
  cases program with
  | add bridge start expected =>
    simp only
    split
    · exact (happended.setLock _ _).setStage hc rfl hown rfl
    · exact happended.addLocked hc rfl hown _ bridge
  | remove name => exact happended.remove hc rfl hown _
  | close => exact happended.remove hc rfl hown _

theorem turn (h : Tidy s) {s' : State} (hc : s.calls[n]? = some c)
    (hstep : s.turn n c = some s') : Tidy s' := by
  unfold State.turn at hstep
  split at hstep
  · rename_i ticket bridge start expected hstage hprogram
    have hquiet : c.stage.quiet = true := by rw [hstage]; rfl
    have hown := h.not_owner hc (by simp [hstage]) (by simp [hstage])
    obtain ⟨⟨lock, got⟩, hturn, rfl⟩ := Option.map_eq_some_iff.mp hstep
    cases got with
    | true => exact h.addLocked hc hquiet hown _ bridge
    | false => exact (h.setLock lock s.ticket).setStage hc hquiet hown rfl
  · rename_i ticket name rest hstage
    have hquiet : c.stage.quiet = true := by rw [hstage]; rfl
    have hown := h.not_owner hc (by simp [hstage]) (by simp [hstage])
    obtain ⟨⟨lock, got⟩, hturn, rfl⟩ := Option.map_eq_some_iff.mp hstep
    cases got with
    | true => exact h.removeLocked hc hquiet hown _ name rest
    | false => exact (h.setLock lock s.ticket).setStage hc hquiet hown rfl
  · cases hstep

theorem addAnswered (h : Tidy s) (hk : Kept cfg s) (hc : s.calls[n]? = some c)
    (hgetMe : c.stage = .getMe) {bridge : ResolvedBridge} {start : Bool}
    {expected : Option ExpectedBot} (hprogram : c.program = .add bridge start expected)
    (answer : Answer) : Tidy (s.addAnswered cfg n c bridge expected answer) := by
  have hquiet : c.stage.quiet = true := by rw [hgetMe]; rfl
  have hown := h.not_owner hc (by simp [hgetMe]) (by simp [hgetMe])
  cases answer with
  | cancelled => exact (h.setLock s.lock.release s.ticket).setStage hc hquiet hown rfl
  | unauthorized => exact h.setStage hc hquiet hown rfl
  | failed text => exact h.setStage hc hquiet hown rfl
  | me identity =>
    simp only [State.addAnswered]
    split
    · exact h.setStage hc hquiet hown rfl
    · exact h.register hk hc hgetMe rfl (hk.checked n c bridge start expected hc hgetMe hprogram).1 _

theorem goOn (h : Tidy s) {s' : State} {outcome : Outcome} (hc : s.calls[n]? = some c)
    (hstarts : ∀ i bridge expected, c.stage = .menu i → c.program = .add bridge true expected →
      InMaps s.maps s.lives i)
    (hmenu : outcome = .cancelled → ∀ i, c.stage ≠ .menu i)
    (hstep : s.goOn cfg n c outcome = some s') : Tidy s' := by
  unfold State.goOn at hstep
  split at hstep
  case h_1 fault hstage =>
    obtain rfl := Option.some.inj hstep
    exact (h.setLock s.lock.release s.ticket).setStage hc (by rw [hstage]; rfl)
      (h.not_owner hc (by simp [hstage]) (by simp [hstage])) rfl
  case h_2 i hstage =>
    split at hstep
    · exact absurd hstage (hmenu rfl i)
    · rename_i bridge expected _ hprogram
      obtain ⟨runner, hr, rfl⟩ := Option.map_eq_some_iff.mp hstep
      exact h.startRunner hc hstage (hstarts i bridge expected hstage hprogram) hr
    · obtain rfl := Option.some.inj hstep
      exact h.returned hc hstage
  case h_3 i j rest hstage =>
    split at hstep
    · rename_i hover
      obtain ⟨runner, hr, rfl⟩ := Option.map_eq_some_iff.mp hstep
      refine h.stopIntake hc (by simp [hstage]) (fun a b hat => ?_)
        (h.not_owner hc (by simp [hstage]) (by simp [hstage])) hr (.inl rfl)
        (fun k hk => .inl hk) rest
      obtain ⟨rest', heq⟩ := hat
      obtain ⟨rfl, rfl, rfl⟩ : i = a ∧ j = b ∧ rest = rest' := by simpa using hstage.symm.trans heq
      refine ⟨rfl, fun job hj => ?_⟩
      simpa [State.isOver, hj] using hover
    · cases hstep
  case h_4 i j rest hstage =>
    split at hstep
    · rename_i hover
      obtain rfl := Option.some.inj hstep
      have hown := h.not_owner hc (by simp [hstage]) (by simp [hstage])
      refine ⟨h.owned_set hown, h.menus_set (by simp), h.tended.mono
        (fun a b hat => .inl ((hat.set hc).resolve_right (by simp [hstage])))
        (fun a b hat => (hat.set hc).imp_right fun ⟨rest', heq⟩ job hj => ?_)
        (fun a b hat => .inl (hat.of_set.resolve_right (by simp)))
        (fun a hat => hat.of_set.resolve_right (by simp)) fun a ha => ha⟩
      obtain ⟨rfl, rfl, rfl⟩ : i = a ∧ j = b ∧ rest = rest' := by simpa using hstage.symm.trans heq
      simpa [State.isOver, hj] using hover
    · cases hstep
  case h_5 i rest hstage =>
    have hquiet : c.stage.quiet = true := by rw [hstage]; rfl
    have hown := h.not_owner hc (by simp [hstage]) (by simp [hstage])
    cases outcome with
    | done =>
      obtain rfl := Option.some.inj hstep
      exact h.remove hc hquiet hown _
    | raised text =>
      obtain rfl := Option.some.inj hstep
      exact h.setStage hc hquiet hown rfl
    | cancelled =>
      obtain rfl := Option.some.inj hstep
      exact h.setStage hc hquiet hown rfl
  case h_6 => cases hstep

theorem setJob (h : Tidy s) {j : Nat} {job : Job} (hj : s.jobs[j]? = some job)
    (hrun : job.phase ≠ .over) {phase : Phase}
    (hphase : phase = .over ∨ phase = .cancelled ∧ (job.kind = .intake ∨ Polls s.calls job.live j)) :
    Tidy { s with jobs := s.jobs.set j { job with phase } } :=
  ⟨h.owned, h.menus, h.tended.setJob hj hrun hphase⟩

theorem timeout (h : Tidy s) {s' : State} (hc : s.calls[n]? = some c)
    (hstep : s.timeout c = some s') : Tidy s' := by
  unfold State.timeout at hstep
  split at hstep
  · rename_i i j rest hstage
    obtain ⟨⟨k, job⟩, hunended, rfl⟩ := Option.map_eq_some_iff.mp hstep
    obtain ⟨hjk, hj, hrun⟩ := unended_eq_some hunended
    obtain rfl := Option.some.inj hjk
    obtain ⟨job', hj', hkind⟩ := h.tended.awaited ⟨n, c, hc, rest, hstage⟩
    obtain rfl := Option.some.inj (hj.symm.trans hj')
    exact h.setJob hj hrun (.inr ⟨rfl, .inl hkind⟩)
  · cases hstep

theorem ends (h : Tidy s) {s' : State} {j : Nat} (hstep : s.ends j = some s') : Tidy s' := by
  obtain ⟨⟨k, job⟩, hunended, rfl⟩ := Option.map_eq_some_iff.mp hstep
  obtain ⟨-, hj, hrun⟩ := unended_eq_some hunended
  exact h.setJob hj hrun (.inl rfl)

end Tidy

end

/-! ## a run in which no bridge is removed while its runner is yet to be started -/

namespace State

/-- The bridges that are registered, with a runner that is yet to be started. -/
def underWay (s : State) : List Nat :=
  s.calls.filterMap fun c =>
    match c.stage, c.program with
    | .menu i, .add _ true _ => some i
    | _, _ => none

def inMaps (s : State) (i : Nat) : Bool :=
  (s.lives[i]?).any fun live => s.maps.byName.get? live.name = some i

def atMenu (s : State) (n : Nat) : Bool :=
  (s.calls[n]?).any fun c =>
    match c.stage with
    | .menu _ => true
    | _ => false

end State

/-- The step takes out of the maps no bridge whose runner is yet to be started, and
cancels no call that publishes a menu. -/
def guarded (cfg : Config) (s : State) (e : Event) : Bool :=
  (match e with
    | .goOn n .cancelled => !s.atMenu n
    | _ => true) &&
    s.underWay.all fun i => !s.inMaps i || (s.step cfg e).all (·.inMaps i)

/-- Whose runner is yet to be started is in the maps. -/
def Started (s : State) : Prop := ∀ i ∈ s.underWay, s.inMaps i = true

section
variable {cfg : Config} {s s' : State} {n i : Nat} {c : Call} {e : Event}

theorem inMaps_iff : s.inMaps i = true ↔ InMaps s.maps s.lives i := by
  simp [State.inMaps, InMaps, Option.any_eq_true]

theorem mem_underWay : i ∈ s.underWay ↔ ∃ (n : Nat) (c : Call) (bridge : ResolvedBridge)
    (expected : Option ExpectedBot), s.calls[n]? = some c ∧ c.stage = .menu i ∧
      c.program = .add bridge true expected := by
  rw [State.underWay, List.mem_filterMap]
  constructor
  · rintro ⟨c, hmem, hc⟩
    obtain ⟨n, hn⟩ := List.mem_iff_getElem?.mp hmem
    split at hc
    · rename_i k bridge expected hstage hprogram
      obtain rfl := Option.some.inj hc
      exact ⟨n, c, bridge, expected, hn, hstage, hprogram⟩
    · cases hc
  · rintro ⟨n, c, bridge, expected, hn, hstage, hprogram⟩
    exact ⟨c, List.mem_of_getElem? hn, by rw [hstage, hprogram]⟩

theorem calm_call (program : Program) : Calm s.calls (s.call program).calls := by
  have happended : Calm (s.calls ++ [⟨program, .returned⟩]) (s.call program).calls := by
    unfold State.call
    cases program with
    | add bridge start expected =>
      simp only
      split
      · exact Calm.set (s := { s with calls := _ }) (by simp)
      · exact (moves_addLocked (s := { s with calls := _, lock := _ }) bridge).calm
    | remove name => exact (moves_remove (s := { s with calls := _ }) _).calm
    | close => exact (moves_remove (s := { s with calls := _ }) _).calm
  intro m i d hd hmenu
  rcases Tasks.append_cases (happended hd hmenu) with ⟨-, rfl⟩ | hd
  · cases hmenu
  · exact hd

theorem calm_turn (hstep : s.turn n c = some s') : Calm s.calls s'.calls := by
  unfold State.turn at hstep
  split at hstep
  · obtain ⟨⟨lock, got⟩, -, rfl⟩ := Option.map_eq_some_iff.mp hstep
    cases got with
    | true => exact (moves_addLocked (s := { s with lock }) _).calm
    | false => exact Calm.set (by simp)
  · obtain ⟨⟨lock, got⟩, -, rfl⟩ := Option.map_eq_some_iff.mp hstep
    cases got with
    | true => exact (moves_removeLocked (s := { s with lock }) _ _).calm
    | false => exact Calm.set (by simp)
  · cases hstep

theorem calm_goOn {outcome : Outcome} (hstep : s.goOn cfg n c outcome = some s') :
    Calm s.calls s'.calls := by
  unfold State.goOn at hstep
  split at hstep
  case h_1 =>
    obtain rfl := Option.some.inj hstep
    exact Calm.set (by simp)
  case h_2 i hstage =>
    split at hstep
    · obtain rfl := Option.some.inj hstep
      exact Calm.set (by simp)
    · obtain ⟨runner, -, rfl⟩ := Option.map_eq_some_iff.mp hstep
      unfold State.startRunner
      split
      · exact Calm.set (by simp)
      · split <;> exact Calm.set (s := s) (by simp)
    · obtain rfl := Option.some.inj hstep
      exact Calm.set (by simp)
  case h_3 =>
    split at hstep
    · obtain ⟨runner, -, rfl⟩ := Option.map_eq_some_iff.mp hstep
      exact (moves_stopIntake _ _ _).calm
    · cases hstep
  case h_4 =>
    split at hstep
    · obtain rfl := Option.some.inj hstep
      exact Calm.set (by simp)
    · cases hstep
  case h_5 =>
    cases outcome with
    | done =>
      obtain rfl := Option.some.inj hstep
      exact (moves_remove _).calm
    | raised text =>
      obtain rfl := Option.some.inj hstep
      exact Calm.set (by simp)
    | cancelled =>
      obtain rfl := Option.some.inj hstep
      exact Calm.set (by simp)
  case h_6 => cases hstep

/-- What `getMe` leads to: a bridge is registered, or the maps stay as they are. -/
theorem addAnswered_cases (cfg : Config) (s : State) (n : Nat) (c : Call) (bridge : ResolvedBridge)
    (expected : Option ExpectedBot) (answer : Answer) :
    (∃ live : LiveBridge, live.owner = n ∧
      s.addAnswered cfg n c bridge expected answer =
        ({ s with
          maps := s.maps.register live s.lives.length
          lives := s.lives ++ [live]
          runners := s.runners ++ [({} : BotRunner)] }.release).setStage n c
            (.menu s.lives.length)) ∨
      (s.addAnswered cfg n c bridge expected answer).maps = s.maps ∧
        (s.addAnswered cfg n c bridge expected answer).lives = s.lives ∧
          Moves s.calls n c (s.addAnswered cfg n c bridge expected answer).calls := by
  cases answer with
  | cancelled => exact .inr ⟨rfl, rfl, _, by simp, rfl⟩
  | unauthorized => exact .inr ⟨rfl, rfl, _, by simp, rfl⟩
  | failed text => exact .inr ⟨rfl, rfl, _, by simp, rfl⟩
  | me identity =>
    simp only [State.addAnswered]
    split
    · exact .inr ⟨rfl, rfl, _, by simp, rfl⟩
    · exact .inl ⟨_, rfl, rfl⟩

/-- Who comes to be at a menu is in the maps. -/
theorem menu_step (hstep : s.step cfg e = some s') {m : Nat} {d : Call}
    (hd : s'.calls[m]? = some d) (hmenu : d.stage = .menu i) :
    s.calls[m]? = some d ∨ InMaps s'.maps s'.lives i := by
  cases e with
  | call program =>
    obtain rfl := Option.some.inj hstep
    exact .inl (calm_call program hd hmenu)
  | turn n =>
    obtain ⟨c, -, hstep⟩ := Option.bind_eq_some_iff.mp hstep
    exact .inl (calm_turn hstep hd hmenu)
  | cancel n =>
    obtain ⟨c, -, hstep⟩ := Option.bind_eq_some_iff.mp hstep
    unfold State.cancel at hstep
    split at hstep
    · obtain rfl := Option.some.inj hstep
      exact .inl hd
    · obtain rfl := Option.some.inj hstep
      exact .inl hd
    · cases hstep
  | answer n a =>
    obtain ⟨c, -, hstep⟩ := Option.bind_eq_some_iff.mp hstep
    unfold State.answer at hstep
    split at hstep
    · rename_i bridge start expected hstage hprogram
      obtain rfl := Option.some.inj hstep
      rcases addAnswered_cases cfg s n c bridge expected a with ⟨live, -, heq⟩ | ⟨-, -, hmoves⟩
      · rw [heq] at hd ⊢
        rcases Tasks.set_cases hd with ⟨-, rfl⟩ | ⟨-, hd⟩
        · obtain rfl : s.lives.length = i := by simpa using hmenu
          refine .inr ⟨live, List.getElem?_concat_length, ?_⟩
          show (s.maps.byName.insert live.name s.lives.length).get? live.name = _
          rw [Dict.get?_insert, if_pos rfl]
        · exact .inl hd
      · exact .inl (hmoves.calm hd hmenu)
    · cases hstep
  | goOn n outcome =>
    obtain ⟨c, -, hstep⟩ := Option.bind_eq_some_iff.mp hstep
    exact .inl (calm_goOn hstep hd hmenu)
  | timeout n =>
    obtain ⟨c, -, hstep⟩ := Option.bind_eq_some_iff.mp hstep
    unfold State.timeout at hstep
    split at hstep
    · obtain ⟨⟨j, job⟩, -, rfl⟩ := Option.map_eq_some_iff.mp hstep
      exact .inl hd
    · cases hstep
  | ends j =>
    obtain ⟨⟨j, job⟩, -, rfl⟩ := Option.map_eq_some_iff.mp hstep
    exact .inl hd

theorem Started.step (h : Started s) (hguard : guarded cfg s e = true)
    (hstep : s.step cfg e = some s') : Started s' := by
  intro i hi
  obtain ⟨m, d, bridge, expected, hd, hstage, hprogram⟩ := mem_underWay.mp hi
  rcases menu_step hstep hd hstage with hold | hin
  · have hmem : i ∈ s.underWay := mem_underWay.mpr ⟨m, d, bridge, expected, hold, hstage, hprogram⟩
    have hkeeps := List.all_eq_true.mp (Bool.and_eq_true_iff.mp hguard).2 i hmem
    rw [h i hmem, Bool.not_true, Bool.false_or] at hkeeps
    rw [hstep] at hkeeps
    exact hkeeps
  · exact inMaps_iff.mpr hin

theorem Tidy.step (h : Tidy s) (hk : Kept cfg s) (hstarted : Started s)
    (hguard : guarded cfg s e = true) (hstep : s.step cfg e = some s') : Tidy s' := by
  cases e with
  | call program =>
    obtain rfl := Option.some.inj hstep
    exact h.call program
  | turn n =>
    obtain ⟨c, hc, hstep⟩ := Option.bind_eq_some_iff.mp hstep
    exact h.turn hc hstep
  | cancel n =>
    obtain ⟨c, -, hstep⟩ := Option.bind_eq_some_iff.mp hstep
    unfold State.cancel at hstep
    split at hstep
    · obtain rfl := Option.some.inj hstep
      exact h.setLock _ _
    · obtain rfl := Option.some.inj hstep
      exact h.setLock _ _
    · cases hstep
  | answer n a =>
    obtain ⟨c, hc, hstep⟩ := Option.bind_eq_some_iff.mp hstep
    unfold State.answer at hstep
    split at hstep
    · rename_i bridge start expected hstage hprogram
      obtain rfl := Option.some.inj hstep
      exact h.addAnswered hk hc hstage hprogram a
    · cases hstep
  | goOn n outcome =>
    obtain ⟨c, hc, hstep⟩ := Option.bind_eq_some_iff.mp hstep
    refine h.goOn hc (fun i bridge expected hstage hprogram => ?_) (fun hcancel i hstage => ?_) hstep
    · exact inMaps_iff.mp (hstarted i (mem_underWay.mpr ⟨n, c, bridge, expected, hc, hstage, hprogram⟩))
    · subst hcancel
      have hmenu := (Bool.and_eq_true_iff.mp hguard).1
      simp [State.atMenu, hc, hstage] at hmenu
  | timeout n =>
    obtain ⟨c, hc, hstep⟩ := Option.bind_eq_some_iff.mp hstep
    exact h.timeout hc hstep
  | ends j => exact h.ends hstep

structure Ready (s : State) : Prop where
  tidy : Tidy s
  started : Started s

theorem ready_of_reaches
    (h : Run.Reaches (system cfg) (fun s e => guarded cfg s e = true) s) : Ready s := by
  have hstart : Ready (system cfg).start := ⟨.start, by rintro i ⟨⟩⟩
  refine h.invariant_of (fun _ hs => (kept_of_reaches hs : Kept cfg _)) hstart ?_
  exact fun s e t hk hs hguard hstep =>
    ⟨hs.tidy.step hk hs.started hguard hstep, hs.started.step hguard hstep⟩

end

/-! ## what the registry keeps -/

/-- A stage of `add`. -/
def Stage.adds : Stage → Bool
  | .addLock _ | .getMe | .refuse _ | .menu _ => true
  | _ => false

/-- The call of `add` that a step belongs to. -/
def State.addOf (s : State) : Event → Option Nat
  | .call (.add ..) => some s.calls.length
  | .call _ | .ends _ => none
  | .turn n | .cancel n | .answer n _ | .goOn n _ | .timeout n =>
      if (s.calls[n]?).any (·.stage.adds) then some n else none

/-- A call stops the runner of this bridge. -/
def Stage.stops (i : Nat) : Stage → Prop
  | .stopPoll k _ _ | .stopIntake k _ _ => k = i
  | _ => False

structure Bijection (cfg : Config) (s : State) : Prop where
  agree : Agree s.maps s.lives
  vetted : ∀ {name : String} {i : Nat} {live : LiveBridge}, s.maps.byName.get? name = some i →
    s.lives[i]? = some live → Vetted cfg live
  /-- What a failed call has registered. -/
  failed : ∀ {n : Nat} {c : Call} {fault : Fault}, s.calls[n]? = some c → c.stage = .raised fault →
    ∀ live ∈ s.lives, live.owner ≠ n
  polling : ∀ {j : Nat} {job : Job}, s.jobs[j]? = some job → job.kind = .poll →
    job.phase = .running → InMaps s.maps s.lives job.live
  /-- Nothing of a bridge that was removed is left once who removed it has returned. -/
  ended : ∀ {j : Nat} {job : Job}, s.jobs[j]? = some job → job.phase ≠ .over →
    InMaps s.maps s.lives job.live ∨ At (Stage.stops job.live) s.calls

section
variable {cfg : Config} {s s' : State} {n : Nat} {e : Event}

theorem Tidy.inMaps_of_task (h : Tidy s) {i j : Nat} {runner : BotRunner}
    (hr : s.runners[i]? = some runner) (htask : runner.task = some j) :
    InMaps s.maps s.lives i := by
  by_contra hgone
  rw [(h.tended.gone hr hgone).1] at htask
  cases htask

theorem Tidy.bijection (h : Tidy s) (hk : Kept cfg s) : Bijection cfg s where
  agree := hk.agree
  vetted _ hlive := hk.vetted _ (List.mem_of_getElem? hlive)
  failed hc hfailed live hlive := by
    obtain ⟨i, hi⟩ := List.mem_iff_getElem?.mp hlive
    exact h.not_owner hc (by simp [hfailed]) (by simp [hfailed]) i live hi
  polling hj hkind hrun := by
    rcases h.tended.poll hj hkind (by simp [hrun]) with ⟨runner, hr, htask, -⟩ | ⟨-, hcancelled⟩
    · exact h.inMaps_of_task hr htask
    · rw [hrun] at hcancelled
      cases hcancelled
  ended {j job} hj hover := by
    cases hkind : job.kind with
    | poll =>
      rcases h.tended.poll hj hkind hover with ⟨runner, hr, htask, -⟩ | ⟨⟨n, c, hc, rest, hstage⟩, -⟩
      · exact .inl (h.inMaps_of_task hr htask)
      · exact .inr ⟨n, c, hc, by simp [hstage, Stage.stops]⟩
    | intake =>
      rcases h.tended.intake hj hkind hover with ⟨runner, hr, hworker⟩ | ⟨n, c, hc, rest, hstage⟩
      · by_cases hin : InMaps s.maps s.lives job.live
        · exact .inl hin
        · -- only who awaits the polling task leaves the intake task be
          rcases (h.tended.gone hr hin).2 with hnone | ⟨k, n, c, hc, rest, hstage⟩
          · rw [hnone] at hworker
            cases hworker
          · exact .inr ⟨n, c, hc, by simp [hstage, Stage.stops]⟩
      · exact .inr ⟨n, c, hc, by simp [hstage, Stage.stops]⟩

/-- The maps and the bridges stay as they are. -/
def Still (s s' : State) : Prop := s'.maps = s.maps ∧ s'.lives = s.lives

theorem still_addLocked (c : Call) (bridge : ResolvedBridge) : Still s (s.addLocked n c bridge) := by
  unfold State.addLocked
  split
  · exact ⟨rfl, rfl⟩
  split
  · exact ⟨rfl, rfl⟩
  split <;> exact ⟨rfl, rfl⟩

theorem still_goOn {c : Call} {outcome : Outcome} (hadds : c.stage.adds = true)
    (hstep : s.goOn cfg n c outcome = some s') : Still s s' := by
  unfold State.goOn at hstep
  split at hstep
  case h_1 =>
    obtain rfl := Option.some.inj hstep
    exact ⟨rfl, rfl⟩
  case h_2 =>
    split at hstep
    · obtain rfl := Option.some.inj hstep
      exact ⟨rfl, rfl⟩
    · obtain ⟨runner, -, rfl⟩ := Option.map_eq_some_iff.mp hstep
      unfold State.startRunner
      split
      · exact ⟨rfl, rfl⟩
      · split <;> exact ⟨rfl, rfl⟩
    · obtain rfl := Option.some.inj hstep
      exact ⟨rfl, rfl⟩
  all_goals simp_all [Stage.adds]

/-- A step of `add` leaves the maps as they are, unless it registers a bridge of its own. -/
theorem add_step (hadd : s.addOf e = some n) (hstep : s.step cfg e = some s') :
    Still s s' ∨ ∃ live : LiveBridge, live.owner = n ∧
      s'.maps = s.maps.register live s.lives.length ∧ s'.lives = s.lives ++ [live] := by
  cases e with
  | call program =>
    obtain rfl := Option.some.inj hstep
    cases program with
    | add bridge start expected =>
      refine .inl ?_
      unfold State.call
      simp only
      split
      · exact ⟨rfl, rfl⟩
      · exact still_addLocked (s := { s with calls := _, lock := _ }) _ bridge
    | remove name => cases hadd
    | close => cases hadd
  | turn n =>
    obtain ⟨c, hc, hstep⟩ := Option.bind_eq_some_iff.mp hstep
    unfold State.turn at hstep
    split at hstep
    · obtain ⟨⟨lock, got⟩, -, rfl⟩ := Option.map_eq_some_iff.mp hstep
      cases got with
      | true => exact .inl (still_addLocked (s := { s with lock }) c _)
      | false => exact .inl ⟨rfl, rfl⟩
    · rename_i hstage
      simp [State.addOf, hc, hstage, Stage.adds] at hadd
    · cases hstep
  | cancel n =>
    obtain ⟨c, -, hstep⟩ := Option.bind_eq_some_iff.mp hstep
    unfold State.cancel at hstep
    split at hstep
    · obtain rfl := Option.some.inj hstep
      exact .inl ⟨rfl, rfl⟩
    · obtain rfl := Option.some.inj hstep
      exact .inl ⟨rfl, rfl⟩
    · cases hstep
  | answer k a =>
    obtain ⟨c, hc, hstep⟩ := Option.bind_eq_some_iff.mp hstep
    unfold State.answer at hstep
    split at hstep
    · rename_i bridge start expected hstage hprogram
      obtain rfl := Option.some.inj hstep
      obtain rfl : k = n := by simpa [State.addOf, hc, hstage, Stage.adds] using hadd
      rcases addAnswered_cases cfg s k c bridge expected a with ⟨live, howner, heq⟩ | ⟨hm, hl, -⟩
      · exact .inr ⟨live, howner, by rw [heq]; rfl, by rw [heq]; rfl⟩
      · exact .inl ⟨hm, hl⟩
    · cases hstep
  | goOn k outcome =>
    obtain ⟨c, hc, hstep⟩ := Option.bind_eq_some_iff.mp hstep
    refine .inl (still_goOn ?_ hstep)
    by_contra hno
    simp [State.addOf, hc, hno] at hadd
  | timeout k =>
    obtain ⟨c, -, hstep⟩ := Option.bind_eq_some_iff.mp hstep
    unfold State.timeout at hstep
    split at hstep
    · obtain ⟨⟨j, job⟩, -, rfl⟩ := Option.map_eq_some_iff.mp hstep
      exact .inl ⟨rfl, rfl⟩
    · cases hstep
  | ends j => cases hadd

/-- The registry is a bijection where no bridge is removed while its runner is yet to be
started; and whatever an `add` that fails has done, it was not to the maps. -/
theorem bijection_of_guarded (cfg : Config) (s : State)
    (h : Run.Reaches (system cfg) (fun s e => guarded cfg s e = true) s) :
    Bijection cfg s ∧ ∀ e s' n, s.addOf e = some n → s.step cfg e = some s' →
      Still s s' ∨ ∃ live : LiveBridge, live.owner = n ∧
        s'.maps = s.maps.register live s.lives.length ∧ s'.lives = s.lives ++ [live] :=
  ⟨(ready_of_reaches h).tidy.bijection (kept_of_reaches h), fun _ _ _ => add_step⟩

def contact : ResolvedBridge where
  name := "ann"
  maxChatId := 5
  tokenEnv := "ANN"

/-- A bridge is brought up and down again, while another one waits for the lock and is
then found to use the guardian's bot. -/
theorem bijection_up_and_down : ∃ s, Bijection { guardianBotId := some 1 } s ∧
    s.calls.map (·.stage) = [.returned, .returned, .raised (.identityError
      "bridge 'bob': $BOB is the guardian's own token")] := by
  obtain ⟨s, hs, hfinal⟩ := Run.Reaches.exists_of_play (system { guardianBotId := some 1 })
    (guarded { guardianBotId := some 1 })
    [.call (.add contact true none), .answer 0 (.me ⟨7, none⟩), .goOn 0 .done,
      .call (.remove "ann"), .call (.add ⟨"bob", 6, "BOB", true⟩ true none), .ends 0, .goOn 1 .done,
      .ends 1, .goOn 1 .done, .goOn 1 .done, .answer 2 (.me ⟨1, none⟩), .goOn 2 .done]
    (fun s => s.calls.map (·.stage) = [.returned, .returned, .raised (.identityError
      "bridge 'bob': $BOB is the guardian's own token")]) (by decide +kernel)
  exact ⟨s, (bijection_of_guarded _ s hs).1, of_decide_eq_true hfinal⟩

/-- A bridge is removed while its menu is being published: its runner is stopped first
and started then. -/
theorem not_bijection : ∃ s, Run.Reaches (system {}) Run.anyStep s ∧ ¬ Bijection {} s := by
  obtain ⟨s, hs, hfinal⟩ := Run.Reaches.exists_of_play (system {}) (fun _ _ => true)
    [.call (.add contact true none), .answer 0 (.me ⟨7, none⟩), .call (.remove "ann"),
      .goOn 1 .done, .goOn 0 .done]
    (fun s => (s.jobs[0]?).any fun job =>
      job.kind = .poll && job.phase = .running && !s.inMaps job.live) (by decide +kernel)
  refine ⟨s, hs.mono fun _ _ _ => trivial, fun h => ?_⟩
  obtain ⟨job, hj, htest⟩ := (Option.any_eq_true ..).mp hfinal
  simp only [Bool.and_eq_true, decide_eq_true_eq, Bool.not_eq_true'] at htest
  have hin := inMaps_iff.mpr (h.polling hj htest.1.1 htest.1.2)
  rw [htest.2] at hin
  cases hin

end

end Telemax.Telegram.Registry
