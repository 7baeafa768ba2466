import Telemax.Lib.Index
import Telemax.Telegram.Registry

/-!
# Telemax.Telegram.Bijection

What the registry keeps whatever the order of its steps: the three maps hold the
same bridges, each under its own key, none on the guardian's bot or on another one
than expected, and whoever passed the checks before `getMe` still passes them
after it.
-/

namespace Telemax.Telegram.Registry

open AsyncLock (Lock)

/-! ## the maps -/

/-- The three maps hold the same bridges, each under its own key. -/
structure Agree (m : Maps) (lives : List LiveBridge) : Prop where
  byName : Keyed m.byName (·.name) lives
  byBotId : Keyed m.byBotId (·.identity.botId) lives
  byMaxChat : Keyed m.byMaxChat (·.maxChatId) lives
  sameBot : ∀ {i : Nat} {live : LiveBridge}, lives[i]? = some live →
    (m.byBotId.get? live.identity.botId = some i ↔ m.byName.get? live.name = some i)
  sameChat : ∀ {i : Nat} {live : LiveBridge}, lives[i]? = some live →
    (m.byMaxChat.get? live.maxChatId = some i ↔ m.byName.get? live.name = some i)

namespace Agree
variable {m : Maps} {lives : List LiveBridge} {live other : LiveBridge} {name : String} {i j : Nat}

theorem start : Agree {} [] where
  byName := .empty _ _
  byBotId := .empty _ _
  byMaxChat := .empty _ _
  sameBot h := by cases h
  sameChat h := by cases h

theorem pop (h : Agree m lives) (hlive : lives[i]? = some live)
    (hname : m.byName.get? live.name = some i) : Agree (m.pop live.name live) lives where
  byName := h.byName.erase _
  byBotId := h.byBotId.erase _
  byMaxChat := h.byMaxChat.erase _
  sameBot hother := by
    rw [Maps.pop, Keyed.get?_erase (·.identity.botId) hlive ((h.sameBot hlive).mpr hname)
      hother, Keyed.get?_erase (·.name) hlive hname hother, h.sameBot hother]
  sameChat hother := by
    rw [Maps.pop, Keyed.get?_erase (·.maxChatId) hlive ((h.sameChat hlive).mpr hname)
      hother, Keyed.get?_erase (·.name) hlive hname hother, h.sameChat hother]

/-- A bridge that is new under each of its keys. -/
theorem register (h : Agree m lives) (hname : m.byName.get? live.name = none)
    (hbot : m.byBotId.get? live.identity.botId = none)
    (hchat : m.byMaxChat.get? live.maxChatId = none) :
    Agree (m.register live lives.length) (lives ++ [live]) where
  byName := h.byName.insert live
  byBotId := h.byBotId.insert live
  byMaxChat := h.byMaxChat.insert live
  sameBot hother := by
    rw [Maps.register, Keyed.get?_insert (·.identity.botId) hbot hother,
      Keyed.get?_insert (·.name) hname hother]
    rcases Tasks.append_cases hother with ⟨rfl, -⟩ | hother
    · simp
    · rw [h.sameBot hother]
  sameChat hother := by
    rw [Maps.register, Keyed.get?_insert (·.maxChatId) hchat hother,
      Keyed.get?_insert (·.name) hname hother]
    rcases Tasks.append_cases hother with ⟨rfl, -⟩ | hother
    · simp
    · rw [h.sameChat hother]

end Agree

/-! ## the bots -/

/-- Its bot is not the guardian's, and no other than the one expected. -/
structure Vetted (cfg : Config) (live : LiveBridge) : Prop where
  guardian : cfg.guardianBotId ≠ some live.identity.botId
  bot : ∀ expected ∈ live.expected, ∀ botId ∈ expected.botId, live.identity.botId = botId
  username : ∀ expected ∈ live.expected, ∀ username ∈ expected.username, username ≠ "" →
    bare (live.identity.username.getD "") = bare username

theorem mismatch_eq_none {name : String} {actual : BotIdentity} {expected : ExpectedBot}
    {guardianBotId : Option Int} (h : mismatch name actual expected guardianBotId = none) :
    guardianBotId ≠ some actual.botId ∧ (∀ botId ∈ expected.botId, actual.botId = botId) ∧
      ∀ username ∈ expected.username, username ≠ "" →
        bare (actual.username.getD "") = bare username := by
  unfold mismatch at h
  split at h
  · cases h
  rename_i hguardian
  split at h
  · cases h
  rename_i hbot
  refine ⟨hguardian, fun botId hmem => ?_, fun username hmem hne => ?_⟩
  · rw [Option.mem_def] at hmem
    simp only [hmem, Option.any_some, decide_eq_true_eq, Decidable.not_not] at hbot
    exact hbot.symm
  · rw [Option.mem_def] at hmem
    simp only [hmem] at h
    by_contra hother
    rw [if_pos (by simp [hne, hother])] at h
    cases h

/-- A bot that is not refused is the one expected, and new to the maps. -/
theorem vetted_of_refusal {cfg : Config} {s : State} {bridge : ResolvedBridge}
    {identity : BotIdentity} {expected : Option ExpectedBot} {n : Nat}
    (h : s.refusal cfg bridge identity expected = none) :
    Vetted cfg ⟨bridge.name, bridge.maxChatId, identity, n, expected⟩ ∧
      s.maps.byBotId.get? identity.botId = none := by
  unfold State.refusal at h
  cases expected with
  | none =>
    simp only at h
    split at h
    · cases h
    · rename_i hguardian
      exact ⟨⟨hguardian, by simp, by simp⟩, by simpa [State.refusal.taken] using h⟩
  | some expected =>
    simp only [Option.or_eq_none_iff, Option.map_eq_none_iff] at h
    obtain ⟨hguardian, hbot, husername⟩ := mismatch_eq_none h.1
    refine ⟨⟨hguardian, ?_, ?_⟩, by simpa [State.refusal.taken] using h.2⟩
    · rintro _ ⟨⟩
      exact hbot
    · rintro _ ⟨⟩
      exact husername

/-! ## the lock -/

/-- A call that keeps the lock over an await. -/
def Stage.holds : Stage → Bool
  | .getMe | .refuse _ => true
  | _ => false

/-- One call at most has the lock, and then it is locked. -/
structure Exclusive (lock : Lock) (ticket : Nat) (calls : List Call) : Prop where
  sound : lock.Sound
  line : ∀ id ∈ lock.ids, id < ticket
  held : ∀ {n : Nat} {c : Call}, calls[n]? = some c → c.stage.holds = true → lock.locked = true
  one : ∀ {m n : Nat} {c d : Call}, calls[m]? = some c → calls[n]? = some d →
    c.stage.holds = true → d.stage.holds = true → m = n

/-- The lock has been taken by this call, and by no other. -/
structure Taken (lock : Lock) (ticket : Nat) (calls : List Call) (n : Nat) : Prop where
  sound : lock.Sound
  line : ∀ id ∈ lock.ids, id < ticket
  locked : lock.locked = true
  only : ∀ {m : Nat} {c : Call}, calls[m]? = some c → c.stage.holds = true → m = n

section
variable {lock lock' : Lock} {ticket id n : Nat} {calls : List Call} {c : Call} {stage : Stage}

namespace Exclusive

theorem nobody (h : Exclusive lock ticket calls) (hopen : lock.locked = false) {m : Nat} {d : Call}
    (hd : calls[m]? = some d) : d.stage.holds = false := by
  cases hholds : d.stage.holds with
  | false => rfl
  | true => simp [h.held hd hholds] at hopen

theorem taken (h : Exclusive lock ticket calls) (hc : calls[n]? = some c)
    (hholds : c.stage.holds = true) : Taken lock ticket calls n where
  sound := h.sound
  line := h.line
  locked := h.held hc hholds
  only hd hd' := h.one hd hc hd' hholds

theorem waiters_lt (h : Exclusive lock ticket calls) : ∀ w ∈ lock.waiters, w.id < ticket :=
  fun _ hw => h.line _ (List.mem_map_of_mem hw)

theorem acquired (h : Exclusive lock ticket calls) (hlock : lock.acquire ticket = (lock', true))
    (n : Nat) : Taken lock' ticket calls n := by
  have hsound := h.sound.acquire h.waiters_lt
  rw [hlock] at hsound
  obtain ⟨hopen, rfl, -⟩ := Lock.acquire_true hlock
  exact ⟨hsound, h.line, rfl, fun hd hholds => by simp [h.nobody hopen hd] at hholds⟩

theorem queued (h : Exclusive lock ticket calls) (hlock : lock.acquire ticket = (lock', false)) :
    Exclusive lock' (ticket + 1) calls := by
  have hsound := h.sound.acquire h.waiters_lt
  rw [hlock] at hsound
  obtain ⟨hlocked, hids, -⟩ := Lock.acquire_false hlock
  refine ⟨hsound, fun id hid => ?_, fun hd hholds => hlocked ▸ h.held hd hholds, h.one⟩
  rw [hids, List.mem_append, List.mem_singleton] at hid
  rcases hid with hid | rfl
  · exact Nat.lt_succ_of_lt (h.line id hid)
  · exact Nat.lt_succ_self _

theorem turned (h : Exclusive lock ticket calls) (hlock : lock.turn id = some (lock', true))
    (n : Nat) : Taken lock' ticket calls n := by
  obtain ⟨hopen, hlocked, -, -⟩ := h.sound.turn_first hlock
  refine ⟨h.sound.turn hlock, fun id hid => h.line id ?_, hlocked,
    fun hd hholds => by simp [h.nobody hopen hd] at hholds⟩
  rw [(Lock.turn_eq hlock).1] at hid
  exact List.mem_of_mem_filter hid

theorem left (h : Exclusive lock ticket calls) (hlock : lock.turn id = some (lock', false)) :
    Exclusive lock' ticket calls := by
  obtain ⟨hids, hlocked, -, -⟩ := Lock.turn_eq hlock
  refine ⟨h.sound.turn hlock, fun id hid => h.line id ?_, fun hd hholds => ?_, h.one⟩
  · rw [hids] at hid
    exact List.mem_of_mem_filter hid
  · rw [hlocked, h.held hd hholds, Bool.true_or]

theorem cancel (h : Exclusive lock ticket calls) : Exclusive (lock.cancel id) ticket calls where
  sound := h.sound.cancel
  line := by rw [Lock.ids_cancel]; exact h.line
  held := h.held
  one := h.one

theorem set (h : Exclusive lock ticket calls) (hstage : stage.holds = false) :
    Exclusive lock ticket (calls.set n { c with stage }) where
  sound := h.sound
  line := h.line
  held hd hholds := by
    rcases Tasks.set_cases hd with ⟨-, rfl⟩ | ⟨-, hd⟩
    · simp [hstage] at hholds
    · exact h.held hd hholds
  one hd hd' hholds hholds' := by
    rcases Tasks.set_cases hd with ⟨-, rfl⟩ | ⟨-, hd⟩
    · simp [hstage] at hholds
    rcases Tasks.set_cases hd' with ⟨-, rfl⟩ | ⟨-, hd'⟩
    · simp [hstage] at hholds'
    exact h.one hd hd' hholds hholds'

theorem append (h : Exclusive lock ticket calls) (hc : c.stage.holds = false) :
    Exclusive lock ticket (calls ++ [c]) where
  sound := h.sound
  line := h.line
  held hd hholds := by
    rcases Tasks.append_cases hd with ⟨-, rfl⟩ | hd
    · simp [hc] at hholds
    · exact h.held hd hholds
  one hd hd' hholds hholds' := by
    rcases Tasks.append_cases hd with ⟨-, rfl⟩ | hd
    · simp [hc] at hholds
    rcases Tasks.append_cases hd' with ⟨-, rfl⟩ | hd'
    · simp [hc] at hholds'
    exact h.one hd hd' hholds hholds'

end Exclusive

namespace Taken

/-- It goes on under the lock. -/
theorem hold (h : Taken lock ticket calls n) :
    Exclusive lock ticket (calls.set n { c with stage }) where
  sound := h.sound
  line := h.line
  held _ _ := h.locked
  one hd hd' hholds hholds' := by
    have only {m : Nat} {d : Call} (hd : (calls.set n { c with stage })[m]? = some d)
        (hholds : d.stage.holds = true) : m = n := by
      rcases Tasks.set_cases hd with ⟨hm, -⟩ | ⟨-, hd⟩
      · exact hm
      · exact h.only hd hholds
    rw [only hd hholds, only hd' hholds']

/-- It gives the lock back. -/
theorem release (h : Taken lock ticket calls n) (hstage : stage.holds = false) :
    Exclusive lock.release ticket (calls.set n { c with stage }) := by
  have nobody {m : Nat} {d : Call} (hd : (calls.set n { c with stage })[m]? = some d) :
      d.stage.holds = false := by
    rcases Tasks.set_cases hd with ⟨-, rfl⟩ | ⟨hne, hd⟩
    · exact hstage
    · exact Bool.eq_false_iff.mpr fun hholds => hne (h.only hd hholds)
  refine ⟨h.sound.release, by rw [Lock.ids_release]; exact h.line, fun hd hholds => ?_,
    fun hd _ hholds => ?_⟩
  · simp [nobody hd] at hholds
  · simp [nobody hd] at hholds

/-- It has given the lock back before its next await. -/
theorem pass (h : Taken lock ticket calls n) (hc : calls[n]? = some c)
    (hstage : c.stage.holds = false) : Exclusive lock.release ticket calls := by
  have hsame : calls.set n { c with stage := c.stage } = calls := by
    obtain ⟨hlt, rfl⟩ := List.getElem?_eq_some_iff.mp hc
    exact List.set_getElem_self hlt
  have := h.release (c := c) hstage
  rwa [hsame] at this

end Taken

end

/-! ## every step -/

/-- Whoever asks for its bot's identity has passed the checks before that, and still does. -/
def Checked (m : Maps) (calls : List Call) : Prop :=
  ∀ (n : Nat) (c : Call) (bridge : ResolvedBridge) (start : Bool) (expected : Option ExpectedBot),
    calls[n]? = some c → c.stage = .getMe → c.program = .add bridge start expected →
      m.byName.get? bridge.name = none ∧ m.byMaxChat.get? bridge.maxChatId = none

structure Kept (cfg : Config) (s : State) : Prop where
  agree : Agree s.maps s.lives
  vetted : ∀ live ∈ s.lives, Vetted cfg live
  size : s.runners.length = s.lives.length
  lock : Exclusive s.lock s.ticket s.calls
  checked : Checked s.maps s.calls

section
variable {cfg : Config} {m : Maps} {calls : List Call} {s : State} {n : Nat} {c : Call}
  {stage : Stage}

theorem Checked.set (h : Checked m calls) (hstage : stage ≠ .getMe) :
    Checked m (calls.set n { c with stage }) := by
  intro k d bridge start expected hd hgetMe hprogram
  rcases Tasks.set_cases hd with ⟨-, rfl⟩ | ⟨-, hd⟩
  · exact absurd hgetMe hstage
  · exact h k d bridge start expected hd hgetMe hprogram

theorem Checked.append (h : Checked m calls) (hc : c.stage ≠ .getMe) : Checked m (calls ++ [c]) := by
  intro k d bridge start expected hd hgetMe hprogram
  rcases Tasks.append_cases hd with ⟨-, rfl⟩ | hd
  · exact absurd hgetMe hc
  · exact h k d bridge start expected hd hgetMe hprogram

theorem Checked.pop (h : Checked m calls) (name : String) (live : LiveBridge) :
    Checked (m.pop name live) calls := by
  intro k d bridge start expected hd hgetMe hprogram
  obtain ⟨hname, hchat⟩ := h k d bridge start expected hd hgetMe hprogram
  simp [Maps.pop, Dict.get?_erase, hname, hchat]

theorem holds_false_iff {stage : Stage} (h : stage.holds = false) : stage ≠ .getMe := by
  rintro rfl
  cases h

/-- The bridge that is dropped stands in the maps under the name given. -/
theorem dropped_eq {name : String} {i : Nat} {live : LiveBridge} {runner : BotRunner}
    (h : s.dropped name = some (i, live, runner)) :
    s.maps.byName.get? name = some i ∧ s.lives[i]? = some live ∧ s.runners[i]? = some runner := by
  obtain ⟨k, hname, h⟩ := Option.bind_eq_some_iff.mp h
  obtain ⟨live', hlive, h⟩ := Option.bind_eq_some_iff.mp h
  obtain ⟨runner', hrunner, heq⟩ := Option.map_eq_some_iff.mp h
  obtain ⟨rfl, rfl, rfl⟩ : k = i ∧ live' = live ∧ runner' = runner := by simpa using heq
  exact ⟨hname, hlive, hrunner⟩

namespace Kept

theorem setStage (h : Kept cfg s) (hstage : stage.holds = false) : Kept cfg (s.setStage n c stage) where
  agree := h.agree
  vetted := h.vetted
  size := h.size
  lock := h.lock.set hstage
  checked := h.checked.set (holds_false_iff hstage)

theorem setRunner (h : Kept cfg s) (i : Nat) (runner : BotRunner) :
    Kept cfg (s.setRunner i runner) where
  agree := h.agree
  vetted := h.vetted
  size := by rw [State.setRunner, List.length_set, h.size]
  lock := h.lock
  checked := h.checked

theorem setJobs (h : Kept cfg s) (jobs : List Job) : Kept cfg { s with jobs } :=
  ⟨h.agree, h.vetted, h.size, h.lock, h.checked⟩

/-- The lock alone changes. -/
theorem setLock (h : Kept cfg s) {lock : Lock} {ticket : Nat}
    (hlock : Exclusive lock ticket s.calls) : Kept cfg { s with lock, ticket } :=
  ⟨h.agree, h.vetted, h.size, hlock, h.checked⟩

theorem stopIntake (h : Kept cfg s) (i : Nat) (runner : BotRunner) (rest : List String) :
    Kept cfg (s.stopIntake n c i runner rest) := by
  unfold State.stopIntake
  split
  · exact (h.setRunner _ _).setStage rfl
  · exact (h.setRunner _ _).setStage rfl

theorem stop (h : Kept cfg s) (i : Nat) (runner : BotRunner) (rest : List String) :
    Kept cfg (s.stop n c i runner rest) := by
  unfold State.stop
  split
  · exact ((h.setRunner _ _).setJobs _).setStage rfl
  · exact h.stopIntake _ _ _

/-- A bridge leaves the maps. -/
theorem popped (h : Kept cfg s) {name : String} {i : Nat} {live : LiveBridge} {runner : BotRunner}
    (hdrop : s.dropped name = some (i, live, runner)) :
    Kept cfg { s with maps := s.maps.pop name live } := by
  obtain ⟨hname, hlive, -⟩ := dropped_eq hdrop
  obtain ⟨other, hother, rfl⟩ := h.agree.byName.item hname
  obtain rfl := Option.some.inj (hother.symm.trans hlive)
  exact ⟨h.agree.pop hlive hname, h.vetted, h.size, h.lock, h.checked.pop _ _⟩

theorem remove (h : Kept cfg s) (hc : s.calls[n]? = some c) (hfree : c.stage.holds = false)
    (names : List String) : Kept cfg (s.remove n c names) := by
  induction names generalizing s with
  | nil => exact h.setStage rfl
  | cons name rest ih =>
    unfold State.remove
    cases hlock : s.lock.acquire s.ticket with
    | mk lock got =>
      cases got with
      | false => exact (h.setLock (h.lock.queued hlock)).setStage rfl
      | true =>
        have hfreed : Kept cfg { s with lock := lock.release } :=
          h.setLock ((h.lock.acquired hlock n).pass hc hfree)
        simp only
        split
        · exact ih hfreed hc
        · rename_i i live runner hdrop
          exact (hfreed.popped hdrop).stop _ _ _

theorem removeLocked (h : Kept cfg s) {lock : Lock} (hlock : Taken lock s.ticket s.calls n)
    (hc : s.calls[n]? = some c) (hfree : c.stage.holds = false) (name : String)
    (rest : List String) : Kept cfg ({ s with lock }.removeLocked n c name rest) := by
  have hfreed : Kept cfg { s with lock := lock.release } := h.setLock (hlock.pass hc hfree)
  unfold State.removeLocked
  split
  · exact hfreed.remove hc hfree rest
  · rename_i i live runner hdrop
    exact (hfreed.popped hdrop).stop _ _ _

theorem fail (h : Kept cfg s) {lock : Lock} (hlock : Taken lock s.ticket s.calls n)
    (fault : Fault) : Kept cfg ({ s with lock }.fail n c fault) where
  agree := h.agree
  vetted := h.vetted
  size := h.size
  lock := hlock.release rfl
  checked := h.checked.set nofun

theorem addLocked (h : Kept cfg s) {lock : Lock} (hlock : Taken lock s.ticket s.calls n)
    {bridge : ResolvedBridge} {start : Bool} {expected : Option ExpectedBot}
    (hprogram : c.program = .add bridge start expected) :
    Kept cfg ({ s with lock }.addLocked n c bridge) := by
  unfold State.addLocked
  split
  · exact h.fail hlock _
  rename_i hname
  split
  · exact h.fail hlock _
  rename_i hchat
  split
  · refine ⟨h.agree, h.vetted, h.size, hlock.hold, ?_⟩
    intro k d bridge' start' expected' hd hgetMe hprogram'
    rcases Tasks.set_cases hd with ⟨-, rfl⟩ | ⟨-, hd⟩
    · obtain ⟨rfl, -, -⟩ : bridge = bridge' ∧ start = start' ∧ expected = expected' := by
        simpa using hprogram.symm.trans hprogram'
      exact ⟨Option.not_isSome_iff_eq_none.mp hname, hchat⟩
    · exact h.checked k d bridge' start' expected' hd hgetMe hprogram'
  · exact h.fail hlock _

theorem addAnswered (h : Kept cfg s) (hc : s.calls[n]? = some c) (hgetMe : c.stage = .getMe)
    {bridge : ResolvedBridge} {start : Bool} {expected : Option ExpectedBot}
    (hprogram : c.program = .add bridge start expected) (answer : Answer) :
    Kept cfg (s.addAnswered cfg n c bridge expected answer) := by
  have hlock : Taken s.lock s.ticket s.calls n := h.lock.taken hc (by rw [hgetMe]; rfl)
  have hrefuse (fault : Fault) : Kept cfg (s.setStage n c (.refuse fault)) :=
    ⟨h.agree, h.vetted, h.size, hlock.hold, h.checked.set nofun⟩
  cases answer with
  | cancelled => exact h.fail hlock _
  | unauthorized => exact hrefuse _
  | failed text => exact hrefuse _
  | me identity =>
    simp only [State.addAnswered]
    split
    · exact hrefuse _
    rename_i hrefusal
    obtain ⟨hvetted, hbot⟩ := vetted_of_refusal (n := n) hrefusal
    obtain ⟨hname, hchat⟩ := h.checked n c bridge start expected hc hgetMe hprogram
    refine ⟨h.agree.register hname hbot hchat, ?_, ?_, hlock.release rfl, ?_⟩
    · intro live hlive
      rcases List.mem_append.mp hlive with hlive | hlive
      · exact h.vetted live hlive
      · rw [List.mem_singleton.mp hlive]
        exact hvetted
    · show (s.runners ++ _).length = (s.lives ++ _).length
      rw [List.length_append, List.length_append, h.size]
      rfl
    · -- nobody else is at `getMe`, and this call no longer is
      intro k d bridge' start' expected' hd hgetMe' hprogram'
      rcases Tasks.set_cases hd with ⟨-, rfl⟩ | ⟨hne, hd⟩
      · cases hgetMe'
      · exact absurd (hlock.only hd (by rw [hgetMe']; rfl)) hne

theorem startRunner (h : Kept cfg s) (i : Nat) (runner : BotRunner) :
    Kept cfg (s.startRunner cfg i runner) := by
  unfold State.startRunner
  split
  · exact h
  split
  · exact (h.setRunner _ _).setJobs _
  · exact (h.setRunner _ _).setJobs _

theorem start : Kept cfg (system cfg).start where
  agree := .start
  vetted := by rintro live ⟨⟩
  size := rfl
  lock := ⟨Lock.sound_new, by rintro id ⟨⟩, nofun, nofun⟩
  checked := by rintro n c bridge start expected ⟨⟩

theorem call (h : Kept cfg s) (program : Program) : Kept cfg (s.call program) := by
  have happended : Kept cfg { s with calls := s.calls ++ [⟨program, .returned⟩] } :=
    ⟨h.agree, h.vetted, h.size, h.lock.append rfl, h.checked.append nofun⟩
  have hc : (s.calls ++ [⟨program, .returned⟩])[s.calls.length]? = some ⟨program, .returned⟩ :=
    List.getElem?_concat_length
  unfold State.call
  cases program with
  | add bridge start expected =>
    simp only
    cases hlock : s.lock.acquire s.ticket with
    | mk lock got =>
      cases got with
      | false => exact (happended.setLock (happended.lock.queued hlock)).setStage rfl
      | true => exact happended.addLocked (happended.lock.acquired hlock _) rfl
  | remove name => exact happended.remove hc rfl _
  | close => exact happended.remove hc rfl _

theorem turn (h : Kept cfg s) {s' : State} (hc : s.calls[n]? = some c)
    (hstep : s.turn n c = some s') : Kept cfg s' := by
  unfold State.turn at hstep
  split at hstep
  · rename_i ticket bridge start expected hstage hprogram
    obtain ⟨⟨lock, got⟩, hturn, rfl⟩ := Option.map_eq_some_iff.mp hstep
    cases got with
    | true => exact h.addLocked (h.lock.turned hturn n) hprogram
    | false => exact (h.setLock (h.lock.left hturn)).setStage rfl
  · rename_i ticket name rest hstage
    obtain ⟨⟨lock, got⟩, hturn, rfl⟩ := Option.map_eq_some_iff.mp hstep
    cases got with
    | true => exact h.removeLocked (h.lock.turned hturn n) hc (by rw [hstage]; rfl) name rest
    | false => exact (h.setLock (h.lock.left hturn)).setStage rfl
  · cases hstep

theorem cancel (h : Kept cfg s) {s' : State} (hstep : s.cancel c = some s') : Kept cfg s' := by
  unfold State.cancel at hstep
  split at hstep
  · obtain rfl := Option.some.inj hstep
    exact h.setLock h.lock.cancel
  · obtain rfl := Option.some.inj hstep
    exact h.setLock h.lock.cancel
  · cases hstep

theorem goOn (h : Kept cfg s) {s' : State} {outcome : Outcome} (hc : s.calls[n]? = some c)
    (hstep : s.goOn cfg n c outcome = some s') : Kept cfg s' := by
  unfold State.goOn at hstep
  split at hstep
  case h_1 fault hstage =>
    obtain rfl := Option.some.inj hstep
    exact h.fail (h.lock.taken hc (by rw [hstage]; rfl)) _
  case h_2 i hstage =>
    split at hstep
    · obtain rfl := Option.some.inj hstep
      exact h.setStage rfl
    · obtain ⟨runner, -, rfl⟩ := Option.map_eq_some_iff.mp hstep
      exact (h.startRunner _ _).setStage rfl
    · obtain rfl := Option.some.inj hstep
      exact h.setStage rfl
  case h_3 i j rest hstage =>
    split at hstep
    · obtain ⟨runner, -, rfl⟩ := Option.map_eq_some_iff.mp hstep
      exact h.stopIntake _ _ _
    · cases hstep
  case h_4 i j rest hstage =>
    split at hstep
    · obtain rfl := Option.some.inj hstep
      exact h.setStage rfl
    · cases hstep
  case h_5 i rest hstage =>
    cases outcome with
    | done =>
      obtain rfl := Option.some.inj hstep
      exact h.remove hc (by rw [hstage]; rfl) _
    | raised text =>
      obtain rfl := Option.some.inj hstep
      exact h.setStage rfl
    | cancelled =>
      obtain rfl := Option.some.inj hstep
      exact h.setStage rfl
  case h_6 => cases hstep

theorem step (h : Kept cfg s) {e : Event} {s' : State} (hstep : s.step cfg e = some s') :
    Kept cfg s' := by
  cases e with
  | call program =>
    obtain rfl := Option.some.inj hstep
    exact h.call program
  | turn n =>
    obtain ⟨c, hc, hstep⟩ := Option.bind_eq_some_iff.mp hstep
    exact h.turn hc hstep
  | cancel n =>
    obtain ⟨c, hc, hstep⟩ := Option.bind_eq_some_iff.mp hstep
    exact h.cancel hstep
  | answer n a =>
    obtain ⟨c, hc, hstep⟩ := Option.bind_eq_some_iff.mp hstep
    unfold State.answer at hstep
    split at hstep
    · rename_i bridge start expected hstage hprogram
      obtain rfl := Option.some.inj hstep
      exact h.addAnswered hc hstage hprogram a
    · cases hstep
  | goOn n outcome =>
    obtain ⟨c, hc, hstep⟩ := Option.bind_eq_some_iff.mp hstep
    exact h.goOn hc hstep
  | timeout n =>
    obtain ⟨c, hc, hstep⟩ := Option.bind_eq_some_iff.mp hstep
    unfold State.timeout at hstep
    split at hstep
    · obtain ⟨⟨j, job⟩, -, rfl⟩ := Option.map_eq_some_iff.mp hstep
      exact h.setJobs _
    · cases hstep
  | ends j =>
    obtain ⟨⟨j, job⟩, -, rfl⟩ := Option.map_eq_some_iff.mp hstep
    exact h.setJobs _

end Kept

theorem kept_of_reaches {ok : State → Event → Prop} (h : Run.Reaches (system cfg) ok s) :
    Kept cfg s :=
  h.invariant .start fun _ _ _ hs _ hstep => hs.step hstep

end

end Telemax.Telegram.Registry
