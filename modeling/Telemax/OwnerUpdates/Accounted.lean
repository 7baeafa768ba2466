import Telemax.OwnerUpdates.Dispatch

/-!
# Telemax.OwnerUpdates.Accounted

What every run of the dispatch keeps, whatever faults, cancellations, crashes and
replays it sees.

* The inbox (`Inbox.Keeps`): an update that was written down has an open row until it is
  accounted for.
* The calls (`Call.Fits`): between the read and the commit nobody else moves the state.
* The log (`Logged`): a committed version was read against the one committed before it, and
  stands behind all it asks of MAX.
-/

namespace Telemax.OwnerUpdates

variable {updates : Updates}

/-! ## the inbox -/

namespace Inbox

/-- What the rows say of the updates. -/
structure Keeps (updates : Updates) (remembered accounted : List Nat) (inbox : Inbox) : Prop where
  row : ∀ pts row, inbox.get? pts = some row →
    pts ∈ remembered ∧ (row.state ≠ .accounted → row.snapshot = updates pts)
  kept : ∀ pts ∈ remembered,
    pts ∈ accounted ∨ ∃ row, inbox.get? pts = some row ∧ row.state ≠ .accounted

namespace Keeps

variable {remembered accounted : List Nat} {inbox : Inbox}

theorem remember (h : inbox.Keeps updates remembered accounted) (pts : Nat) (now : Int) :
    (inbox.remember pts (updates pts) now).Keeps updates (pts :: remembered) accounted := by
  unfold Inbox.remember
  split
  · next row hrow =>
    refine ⟨fun p r hr => (h.row p r hr).imp_left (List.mem_cons_of_mem _), fun p hp => ?_⟩
    rcases List.mem_cons.mp hp with rfl | hp
    · exact h.kept p (h.row p row hrow).1
    · exact h.kept p hp
  · next hnone =>
    constructor
    · intro p r hr
      rw [Dict.get?_insert] at hr
      split at hr
      · next hp =>
        subst hp
        obtain rfl := Option.some.inj hr
        exact ⟨List.mem_cons_self, fun _ => rfl⟩
      · exact (h.row p r hr).imp_left (List.mem_cons_of_mem _)
    · intro p hp
      rw [Dict.get?_insert]
      split
      · exact .inr ⟨_, rfl, by simp⟩
      · next hne =>
        exact h.kept p ((List.mem_cons.mp hp).resolve_left fun he => hne he)

/-- A row changes that is not done with, and nothing of what it says. -/
theorem modify (h : inbox.Keeps updates remembered accounted) {pts : Nat} {f : Row → Row}
    (hsnapshot : ∀ row, (f row).snapshot = row.snapshot)
    (hstate : ∀ row, inbox.get? pts = some row →
      ((f row).state = .accounted ↔ row.state = .accounted)) :
    Keeps updates remembered accounted (Dict.modify inbox pts f) := by
  constructor
  · intro p r hr
    rw [Dict.get?_modify] at hr
    split at hr
    · next hp =>
      subst hp
      obtain ⟨row, hrow, rfl⟩ := Option.map_eq_some_iff.mp hr
      refine (h.row _ row hrow).imp_right fun hs hopen => ?_
      rw [hsnapshot]
      exact hs fun hdone => hopen ((hstate row hrow).mpr hdone)
    · exact h.row p r hr
  · intro p hp
    refine (h.kept p hp).imp_right ?_
    rintro ⟨row, hrow, hopen⟩
    rw [Dict.get?_modify]
    split
    · next hp =>
      subst hp
      exact ⟨f row, by rw [hrow]; rfl, fun hdone => hopen ((hstate row hrow).mp hdone)⟩
    · exact ⟨row, hrow, hopen⟩

theorem reopen (h : inbox.Keeps updates remembered accounted) (pts : Nat) (until_ : Int) :
    (inbox.reopen pts until_).Keeps updates remembered accounted := by
  refine h.modify (fun row => ?_) fun row _ => ?_
  · split <;> rfl
  · split
    · exact .rfl
    · next hopen => exact ⟨nofun, fun hdone => absurd hdone hopen⟩

theorem claim (h : inbox.Keeps updates remembered accounted) (now lease : Int) {pts : Nat}
    (hopen : ∀ row, inbox.get? pts = some row → row.state ≠ .accounted) :
    (inbox.claim now lease pts).Keeps updates remembered accounted :=
  h.modify (fun _ => rfl) fun row hrow => ⟨nofun, fun hdone => absurd hdone (hopen row hrow)⟩

/-- A drain takes rows that are due, none of which is done with. -/
theorem claims (h : inbox.Keeps updates remembered accounted) (now lease : Int)
    (claimed : List Nat)
    (hopen : ∀ pts ∈ claimed, ∀ row, inbox.get? pts = some row → row.state ≠ .accounted) :
    Keeps updates remembered accounted (claimed.foldl (Inbox.claim · now lease ·) inbox) := by
  induction claimed generalizing inbox with
  | nil => exact h
  | cons pts claimed ih =>
    refine ih (h.claim now lease (hopen pts List.mem_cons_self)) fun p hp row hrow => ?_
    simp only [Inbox.claim, Dict.get?_modify] at hrow
    split at hrow
    · obtain ⟨old, -, rfl⟩ := Option.map_eq_some_iff.mp hrow
      simp
    · exact hopen p (List.mem_cons_of_mem _ hp) row hrow

theorem account (h : inbox.Keeps updates remembered accounted) (pts : Nat) :
    (inbox.account pts).Keeps updates remembered (pts :: accounted) := by
  constructor
  · intro p r hr
    rw [Inbox.account, Dict.get?_modify] at hr
    split at hr
    · next hp =>
      subst hp
      obtain ⟨row, hrow, rfl⟩ := Option.map_eq_some_iff.mp hr
      exact ⟨(h.row _ row hrow).1, fun hopen => absurd rfl hopen⟩
    · exact h.row p r hr
  · intro p hp
    by_cases he : p = pts
    · exact .inl (he ▸ List.mem_cons_self)
    · refine (h.kept p hp).imp (List.mem_cons_of_mem _) ?_
      rintro ⟨row, hrow, hopen⟩
      refine ⟨row, ?_, hopen⟩
      rw [Inbox.account, Dict.get?_modify, if_neg he]
      exact hrow

/-- Only rows that are done with go. -/
theorem filter (h : inbox.Keeps updates remembered accounted) {p : Nat → Row → Bool}
    (hp : ∀ pts row, row.state ≠ .accounted → p pts row = true) :
    Keeps updates remembered accounted (Dict.filter inbox p) := by
  constructor
  · intro pts row hrow
    rw [Dict.get?_filter] at hrow
    exact h.row pts row (Option.filter_eq_some_iff.mp hrow).1
  · intro pts hpts
    refine (h.kept pts hpts).imp_right ?_
    rintro ⟨row, hrow, hopen⟩
    refine ⟨row, ?_, hopen⟩
    rw [Dict.get?_filter, hrow]
    exact Option.filter_eq_some_iff.mpr ⟨rfl, hp pts row hopen⟩

theorem drop (h : inbox.Keeps updates remembered accounted) (pts : Nat) :
    (inbox.drop pts).Keeps updates remembered accounted :=
  h.filter fun p row hopen => by simp [hopen]

theorem sweep (h : inbox.Keeps updates remembered accounted) :
    inbox.sweep.Keeps updates remembered accounted :=
  h.filter fun p row hopen => by simp [hopen]

end Keeps

end Inbox

/-! ## the log -/

namespace Stored

/-- What an edit asks for. -/
def editing (previous : Stored) (pts : Nat) (snapshot : Snapshot) : List Effect :=
  (previous.edit snapshot).toList.map (.edit pts)

/-- All that a change asks for, newest first: at most one edit, then at most one reaction. -/
def Asks (previous : Stored) (pts : Nat) (snapshot : Snapshot) (effects : List Effect) : Prop :=
  if previous.moved snapshot then
    effects = .reaction pts (representative snapshot.chosen) :: previous.editing pts snapshot ∨
      effects = .unnamed pts :: previous.editing pts snapshot
  else effects = previous.editing pts snapshot

end Stored

def Effect.pts : Effect → Nat
  | .edit pts _ | .reaction pts _ | .unnamed pts => pts

/-- An effect is one that its update asks for. -/
def Effect.Of (snapshot : Snapshot) : Effect → Prop
  | .edit _ text => snapshot.text = some text
  | .reaction _ chosen => chosen = representative snapshot.chosen
  | .unnamed _ => True

namespace Entry

def pts : Entry → Nat
  | effect e => e.pts
  | commit c => c.pts

def effect? : Entry → Option Effect
  | effect e => some e
  | commit _ => none

def commit? : Entry → Option Commit
  | effect _ => none
  | commit c => some c

/-- What is in the log says what the update of that version says. -/
def Of (snapshot : Snapshot) : Entry → Prop
  | effect e => e.Of snapshot
  | commit c => c.snapshot = snapshot

end Entry

/-- The state that a commit leaves. -/
def Commit.after (c : Commit) : Stored := ⟨c.snapshot.fingerprint, c.snapshot.chosen, c.pts⟩

/-- Every commit was read against the one before it, and the last one is what is stored. -/
def Chained : Option Stored → List Commit → Prop
  | stored, [] => ∀ baseline, stored = some baseline → baseline.pts = 0
  | stored, c :: earlier =>
      stored = some c.after ∧ (∀ previous, c.previous = some previous → previous.pts < c.pts) ∧
        Chained c.previous earlier

/-- No version before what is stored was committed later. -/
theorem Chained.le {stored : Option Stored} {commits : List Commit} (h : Chained stored commits)
    {c : Commit} (hc : c ∈ commits) : ∃ st, stored = some st ∧ c.pts ≤ st.pts := by
  induction commits generalizing stored with
  | nil => cases hc
  | cons last earlier ih =>
    obtain ⟨hstored, hlt, hearlier⟩ := h
    refine ⟨_, hstored, ?_⟩
    rcases List.mem_cons.mp hc with rfl | hc
    · exact Nat.le_refl _
    · obtain ⟨previous, hprevious, hle⟩ := ih hearlier hc
      exact Nat.le_trans hle (Nat.le_of_lt (hlt previous hprevious))

structure Logged (updates : Updates) (stored : Option Stored) (remembered : List Nat)
    (log : List Entry) : Prop where
  chained : Chained stored (log.filterMap Entry.commit?)
  /-- A commit stands behind all it asks for. -/
  behind : ∀ later c earlier, log = later ++ .commit c :: earlier →
    ∀ previous, c.previous = some previous →
      ∃ effects, previous.Asks c.pts c.snapshot effects ∧
        ∀ e ∈ effects, .effect e ∈ earlier
  /-- Behind a commit there are later versions only. -/
  ordered : log.Pairwise fun newer older => ∀ c, older = .commit c → c.pts < newer.pts
  told : ∀ entry ∈ log, entry.pts ∈ remembered ∧ entry.Of (updates entry.pts)

namespace Logged

variable {stored : Option Stored} {remembered : List Nat} {log : List Entry}

/-- An entry of a version that is not committed yet. -/
theorem cons_ordered (h : Logged updates stored remembered log) {entry : Entry}
    (hnew : ∀ st, stored = some st → st.pts < entry.pts) :
    (entry :: log).Pairwise fun newer older => ∀ c, older = .commit c → c.pts < newer.pts := by
  refine List.pairwise_cons.mpr ⟨fun older hmem c hc => ?_, h.ordered⟩
  obtain ⟨st, hst, hle⟩ := h.chained.le (c := c)
    (List.mem_filterMap.mpr ⟨older, hmem, by rw [hc]; rfl⟩)
  exact Nat.lt_of_le_of_lt hle (hnew st hst)

theorem effect (h : Logged updates stored remembered log) {e : Effect}
    (hnew : ∀ st, stored = some st → st.pts < e.pts) (hmem : e.pts ∈ remembered)
    (hof : e.Of (updates e.pts)) : Logged updates stored remembered (.effect e :: log) where
  chained := h.chained
  behind later c earlier hlog := by
    cases later with
    | nil => cases hlog
    | cons _ later => exact h.behind later c earlier (List.cons.inj hlog).2
  ordered := h.cons_ordered hnew
  told := List.forall_mem_cons.mpr ⟨⟨hmem, hof⟩, h.told⟩

theorem commit (h : Logged updates stored remembered log) {pts : Nat}
    (hnew : ∀ st, stored = some st → st.pts < pts) (hmem : pts ∈ remembered)
    (hasks : ∀ previous, stored = some previous →
      ∃ effects, previous.Asks pts (updates pts) effects ∧ ∀ e ∈ effects, .effect e ∈ log) :
    Logged updates (some (Commit.after ⟨stored, pts, updates pts⟩)) remembered
      (.commit ⟨stored, pts, updates pts⟩ :: log) where
  chained := ⟨rfl, hnew, h.chained⟩
  behind later c earlier hlog := by
    cases later with
    | nil =>
      obtain ⟨hc, rfl⟩ := List.cons.inj hlog
      obtain rfl := Entry.commit.inj hc
      exact hasks
    | cons _ later => exact h.behind later c earlier (List.cons.inj hlog).2
  ordered := h.cons_ordered hnew
  told := List.forall_mem_cons.mpr ⟨⟨hmem, rfl⟩, h.told⟩

theorem remember (h : Logged updates stored remembered log) (pts : Nat) :
    Logged updates stored (pts :: remembered) log :=
  { h with told := fun entry hentry => (h.told entry hentry).imp_left (List.mem_cons_of_mem _) }

theorem seed (h : Logged updates stored remembered log) (fingerprint : String)
    (chosen : List Chosen) : Logged updates (seed stored fingerprint chosen) remembered log := by
  refine { h with chained := ?_ }
  have hchained := h.chained
  cases hstored : stored with
  | some st =>
    rw [hstored] at hchained
    exact hchained
  | none =>
    rw [hstored] at hchained
    cases hlog : log.filterMap Entry.commit? with
    | nil => exact fun baseline hbaseline => Option.some.inj hbaseline ▸ rfl
    | cons c earlier =>
      rw [hlog] at hchained
      cases hchained.1

end Logged

/-! ## the calls -/

/-- The update of the call is one that was written down. -/
def Stage.settles : Stage → Bool
  | .acquiring | .getting | .editing .. | .mapping _ | .reacting _ | .advancing _ | .accounting =>
      true
  | _ => false

/-- What was read is what is stored; and what is settled is settled. -/
def Stage.Reads (stored : Option Stored) (pts : Nat) : Stage → Prop
  | .editing previous _ | .mapping previous | .reacting previous =>
      stored = some previous ∧ previous.pts < pts
  | .advancing previous => stored = previous ∧ ∀ st, previous = some st → st.pts < pts
  | .accounting => ∃ st, stored = some st ∧ pts ≤ st.pts
  | _ => True

/-- What the call has called for so far. -/
def Stage.Carries (pts : Nat) (snapshot : Snapshot) (carried : List Effect) : Stage → Prop
  | .editing previous text => previous.edit snapshot = some text ∧ carried = []
  | .mapping previous | .reacting previous =>
      previous.moved snapshot = true ∧ carried = previous.editing pts snapshot
  | .advancing (some previous) => previous.Asks pts snapshot carried
  | _ => carried = []

namespace Call

/-- Where the call goes on. -/
def point (c : Call) : Stage := c.ready.getD c.stage

structure Fits (updates : Updates) (s : State) (c : Call) : Prop where
  told : c.point = .remembering ∨ c.point.settles = true → c.snapshot = updates c.pts
  known : c.point.settles = true → c.pts ∈ s.remembered
  rest : ∀ row ∈ c.rest, row.2 = updates row.1 ∧ row.1 ∈ s.remembered
  reads : c.point.Reads s.stored c.pts
  carries : c.point.Carries c.pts c.snapshot c.carried
  logged : ∀ e ∈ c.carried, .effect e ∈ s.log
  inside : c.point.inside = true → c.stage.inside = true

variable {s t : State} {c : Call}

/-- Others act: a call outside the section sees the state move forward only. -/
theorem Fits.frame (h : c.Fits updates s) (hremembered : ∀ pts ∈ s.remembered, pts ∈ t.remembered)
    (hlog : ∀ entry ∈ s.log, entry ∈ t.log)
    (hstored : t.stored = s.stored ∨ c.stage.inside = false ∧
      ∀ st, s.stored = some st → ∃ st', t.stored = some st' ∧ st.pts ≤ st'.pts) :
    c.Fits updates t where
  told := h.told
  known hs := hremembered _ (h.known hs)
  rest row hrow := (h.rest row hrow).imp_right (hremembered _)
  reads := by
    rcases hstored with hsame | ⟨hout, hgrows⟩
    · rw [hsame]
      exact h.reads
    · have hpoint : c.point.inside = false :=
        Bool.eq_false_iff.mpr fun hin => by rw [h.inside hin] at hout; cases hout
      have hreads := h.reads
      cases hstage : c.point <;> rw [hstage] at hpoint hreads <;>
        try first | trivial | cases hpoint
      obtain ⟨st, hst, hle⟩ := hreads
      obtain ⟨st', hst', hle'⟩ := hgrows st hst
      exact ⟨st', hst', Nat.le_trans hle hle'⟩
  carries := h.carries
  logged e he := hlog _ (h.logged e he)
  inside := h.inside

/-- A call that waits for nothing it has read. -/
theorem Fits.idle (stage : Stage) (hsettles : stage.settles = false) (hin : stage.inside = false)
    (hrest : ∀ row ∈ c.rest, row.2 = updates row.1 ∧ row.1 ∈ s.remembered)
    (htold : stage = .remembering → c.snapshot = updates c.pts)
    (hcarried : c.carried = []) (hpoint : c.point = stage) : c.Fits updates s where
  told h := by
    rw [hpoint, hsettles] at h
    exact htold (h.resolve_right nofun)
  known h := by
    rw [hpoint, hsettles] at h
    cases h
  rest := hrest
  reads := by
    rw [hpoint]
    cases stage <;> trivial
  carries := by
    rw [hpoint]
    cases stage <;> first | exact hcarried | cases hsettles
  logged e he := by
    rw [hcarried] at he
    cases he
  inside h := by
    rw [hpoint, hin] at h
    cases h

end Call

/-! ## the state -/

namespace State

/-- The calls, and which of them has the lock. -/
structure Tended (updates : Updates) (s : State) : Prop where
  fits : ∀ (n : Nat) (c : Call), s.calls[n]? = some c → c.Fits updates s
  lock : ∀ (n : Nat) (c : Call), s.calls[n]? = some c → (c.stage.inside = true ↔ s.holder = some n)
  held : ∀ n : Nat, s.holder = some n → ∃ c : Call, s.calls[n]? = some c

structure Kept (updates : Updates) (s : State) : Prop where
  tended : s.Tended updates
  inbox : s.inbox.Keeps updates s.remembered s.accounted
  accounted : ∀ pts ∈ s.accounted, ∃ st, s.stored = some st ∧ pts ≤ st.pts
  logged : Logged updates s.stored s.remembered s.log

theorem start : Kept updates (sys updates).start where
  tended := ⟨nofun, nofun, nofun⟩
  inbox := ⟨nofun, nofun⟩
  accounted := nofun
  logged := ⟨nofun, fun later _ _ h => (by cases later <;> cases h), .nil, nofun⟩

variable {s t : State} {n : Nat} {c d : Call}

namespace Tended

/-- A call is started. -/
theorem append (h : s.Tended updates) (hcalls : t.calls = s.calls ++ [c])
    (hholder : t.holder = s.holder) (hstored : t.stored = s.stored)
    (hremembered : t.remembered = s.remembered) (hlog : t.log = s.log)
    (hout : c.stage.inside = false) (hfits : c.Fits updates t) : t.Tended updates where
  fits m u hu := by
    rw [hcalls] at hu
    rcases Tasks.append_cases hu with ⟨-, rfl⟩ | hu
    · exact hfits
    · exact (h.fits m u hu).frame (by rw [hremembered]; exact fun _ h => h)
        (by rw [hlog]; exact fun _ h => h) (.inl hstored)
  lock m u hu := by
    rw [hcalls] at hu
    rw [hholder]
    rcases Tasks.append_cases hu with ⟨rfl, rfl⟩ | hu
    · rw [hout]
      refine ⟨nofun, fun hheld => ?_⟩
      obtain ⟨v, hv⟩ := h.held _ hheld
      rw [List.getElem?_eq_none (Nat.le_refl _)] at hv
      cases hv
    · exact h.lock m u hu
  held m hm := by
    rw [hholder] at hm
    obtain ⟨u, hu⟩ := h.held m hm
    exact ⟨u, by rw [hcalls, List.getElem?_append_left (List.getElem?_eq_some_iff.mp hu).1]
                 exact hu⟩

/-- Where one has the lock nobody else is inside. -/
theorem outside (h : s.Tended updates) (hn : s.calls[n]? = some c) (hin : c.stage.inside = true)
    {m : Nat} {u : Call} (hm : m ≠ n) (hu : s.calls[m]? = some u) : u.stage.inside = false :=
  Bool.eq_false_iff.mpr fun hu' => hm (Option.some.inj
    (((h.lock m u hu).mp hu').symm.trans ((h.lock n c hn).mp hin)))

/-- One call goes on. -/
theorem set (h : s.Tended updates) (hn : s.calls[n]? = some c)
    (hcalls : t.calls = s.calls.set n d)
    (hremembered : ∀ pts ∈ s.remembered, pts ∈ t.remembered)
    (hlog : ∀ entry ∈ s.log, entry ∈ t.log)
    (hstored : t.stored = s.stored ∨ c.stage.inside = true ∧
      ∀ st, s.stored = some st → ∃ st', t.stored = some st' ∧ st.pts ≤ st'.pts)
    (hothers : ∀ m, m ≠ n → (t.holder = some m ↔ s.holder = some m))
    (hholder : d.stage.inside = true ↔ t.holder = some n) (hfits : d.Fits updates t) :
    t.Tended updates where
  fits m u hu := by
    rw [hcalls] at hu
    rcases Tasks.set_cases hu with ⟨-, rfl⟩ | ⟨hm, hu⟩
    · exact hfits
    · exact (h.fits m u hu).frame hremembered hlog
        (hstored.imp_right (.imp_left fun hin => h.outside hn hin hm hu))
  lock m u hu := by
    rw [hcalls] at hu
    rcases Tasks.set_cases hu with ⟨rfl, rfl⟩ | ⟨hm, hu⟩
    · exact hholder
    · rw [hothers m hm]
      exact h.lock m u hu
  held m hm := by
    rw [hcalls]
    by_cases he : m = n
    · subst he
      exact ⟨d, List.getElem?_set_self (List.getElem?_eq_some_iff.mp hn).1⟩
    · rw [List.getElem?_set_ne (Ne.symm he)]
      exact h.held m ((hothers m he).mp hm)

/-- An await of the call is executed. -/
theorem executed (h : s.Tended updates) (hn : s.calls[n]? = some c)
    (hcalls : t.calls = s.calls.set n d) (hstage : d.stage = c.stage)
    (hholder : t.holder = s.holder)
    (hremembered : ∀ pts ∈ s.remembered, pts ∈ t.remembered)
    (hlog : ∀ entry ∈ s.log, entry ∈ t.log)
    (hstored : t.stored = s.stored ∨ c.stage.inside = true ∧
      ∀ st, s.stored = some st → ∃ st', t.stored = some st' ∧ st.pts ≤ st'.pts)
    (hfits : d.Fits updates t) : t.Tended updates := by
  refine h.set hn hcalls hremembered hlog hstored (fun m _ => by rw [hholder]) ?_ hfits
  rw [hstage, hholder]
  exact h.lock n c hn

/-- The call leaves the section, or goes on as it stands. -/
theorem go (h : s.Tended updates) (hn : s.calls[n]? = some c)
    (hin : d.stage.inside = true → c.stage.inside = true)
    (hfits : d.Fits updates (s.go n d)) : (s.go n d).Tended updates := by
  refine h.set hn rfl (fun _ h => h) (fun _ h => h) (.inl rfl) (fun m hm => ?_) ?_ hfits
  · simp only [State.go]
    split
    · next hheld =>
      rw [hheld.1]
      exact ⟨nofun, fun he => absurd (Option.some.inj he).symm hm⟩
    · exact .rfl
  · simp only [State.go]
    split
    · next hheld =>
      rw [hheld.2]
      exact ⟨nofun, nofun⟩
    · next hheld =>
      refine ⟨fun hd => (h.lock n c hn).mp (hin hd), fun heq => ?_⟩
      cases hd : d.stage.inside with
      | true => rfl
      | false => exact absurd ⟨heq, hd⟩ hheld

end Tended

end State

/-! ## one await -/

theorem afterReaction_reads {stored : Option Stored} {previous : Stored} {pts : Nat}
    (hread : stored = some previous) (hlt : previous.pts < pts) :
    (afterReaction previous).Reads stored pts :=
  ⟨hread, fun _ hst => Option.some.inj hst ▸ hlt⟩

theorem afterEdit_reads {stored : Option Stored} {previous : Stored} {pts : Nat}
    (snapshot : Snapshot) (hread : stored = some previous) (hlt : previous.pts < pts) :
    (afterEdit previous snapshot).Reads stored pts := by
  unfold afterEdit
  split
  · exact ⟨hread, hlt⟩
  · exact afterReaction_reads hread hlt

theorem afterEdit_carries (previous : Stored) (pts : Nat) (snapshot : Snapshot) :
    (afterEdit previous snapshot).Carries pts snapshot (previous.editing pts snapshot) := by
  unfold afterEdit
  split
  · next hmoved => exact ⟨hmoved, rfl⟩
  · next hmoved =>
    show previous.Asks pts snapshot _
    rw [Stored.Asks, if_neg hmoved]

theorem afterGet_reads (stored : Option Stored) (pts : Nat) (snapshot : Snapshot) :
    (afterGet stored pts snapshot).Reads stored pts := by
  cases stored with
  | none => exact ⟨rfl, nofun⟩
  | some previous =>
    simp only [afterGet]
    split
    · next hle => exact ⟨previous, rfl, hle⟩
    · next hlt =>
      split
      · exact ⟨rfl, Nat.lt_of_not_le hlt⟩
      · exact afterEdit_reads snapshot rfl (Nat.lt_of_not_le hlt)

theorem afterGet_carries (stored : Option Stored) (pts : Nat) (snapshot : Snapshot) :
    (afterGet stored pts snapshot).Carries pts snapshot [] := by
  cases stored with
  | none => exact rfl
  | some previous =>
    simp only [afterGet]
    split
    · exact rfl
    · split
      · next text hedit => exact ⟨hedit, rfl⟩
      · next hedit =>
        have hcarries := afterEdit_carries previous pts snapshot
        rw [Stored.editing, hedit] at hcarries
        exact hcarries

namespace Call

variable {s t : State} {c : Call}

theorem point_of_ready (h : c.ready = none) : c.point = c.stage := by
  rw [point, h, Option.getD_none]

/-- An await of a call that settles its update. -/
theorem Fits.next (h : c.Fits updates s) (hready : c.ready = none)
    (hsettles : c.stage.settles = true) {stage : Stage} {carried : List Effect}
    (hremembered : ∀ pts ∈ s.remembered, pts ∈ t.remembered)
    (hreads : stage.Reads t.stored c.pts) (hcarries : stage.Carries c.pts c.snapshot carried)
    (hlogged : ∀ e ∈ carried, .effect e ∈ t.log)
    (hin : stage.inside = true → c.stage.inside = true) :
    Fits updates t { c with ready := some stage, carried } where
  told _ := h.told (.inr (by rw [point_of_ready hready, hsettles]))
  known _ := hremembered _ (h.known (by rw [point_of_ready hready, hsettles]))
  rest row hrow := (h.rest row hrow).imp_right (hremembered _)
  reads := hreads
  carries := hcarries
  logged := hlogged
  inside := hin

end Call

namespace State

namespace Kept

variable {s t : State} {n : Nat} {c : Call}

theorem fits (h : s.Kept updates) (hn : s.calls[n]? = some c) : c.Fits updates s :=
  h.tended.fits n c hn

/-- The calls go on, and nothing else of the state moves. -/
theorem of_tended (h : s.Kept updates) (ht : t.Tended updates) (hstored : t.stored = s.stored)
    (hinbox : t.inbox = s.inbox) (hremembered : t.remembered = s.remembered)
    (haccounted : t.accounted = s.accounted) (hlog : t.log = s.log) : t.Kept updates where
  tended := ht
  inbox := by
    rw [hinbox, hremembered, haccounted]
    exact h.inbox
  accounted := by
    rw [haccounted, hstored]
    exact h.accounted
  logged := by
    rw [hstored, hremembered, hlog]
    exact h.logged

/-- The call looks, and goes on. -/
theorem looked (h : s.Kept updates) (hn : s.calls[n]? = some c) (hready : c.ready = none)
    (hsettles : c.stage.settles = true) {stage : Stage}
    (hreads : stage.Reads s.stored c.pts) (hcarries : stage.Carries c.pts c.snapshot c.carried)
    (hin : stage.inside = true → c.stage.inside = true) :
    (s.setCall n { c with ready := some stage }).Kept updates := by
  refine h.of_tended ?_ rfl rfl rfl rfl rfl
  exact h.tended.executed hn rfl rfl rfl (fun _ h => h) (fun _ h => h) (.inl rfl)
    ((h.fits hn).next hready hsettles (fun _ h => h) hreads hcarries (h.fits hn).logged hin)

/-- An effect is called for. -/
theorem called (h : s.Kept updates) (hn : s.calls[n]? = some c) (hready : c.ready = none)
    (hsettles : c.stage.settles = true) (hin : c.stage.inside = true) {effect : Effect}
    {stage : Stage} (hpts : effect.pts = c.pts) (hof : effect.Of c.snapshot)
    (hlt : ∀ st, s.stored = some st → st.pts < c.pts) (hreads : stage.Reads s.stored c.pts)
    (hcarries : stage.Carries c.pts c.snapshot (effect :: c.carried)) :
    (s.call n c effect stage).Kept updates where
  tended := by
    refine h.tended.executed hn rfl rfl rfl (fun _ h => h)
      (fun _ h => List.mem_cons_of_mem _ h) (.inl rfl)
      ((h.fits hn).next hready hsettles (fun _ h => h) hreads hcarries ?_ fun _ => hin)
    rw [List.forall_mem_cons]
    exact ⟨List.mem_cons_self, fun e he => List.mem_cons_of_mem _ ((h.fits hn).logged e he)⟩
  inbox := h.inbox
  accounted := h.accounted
  logged := by
    have hpoint := Call.point_of_ready hready
    refine h.logged.effect (hpts ▸ hlt) ?_ ?_
    · rw [hpts]
      exact (h.fits hn).known (by rw [hpoint, hsettles])
    · rw [hpts, ← (h.fits hn).told (.inr (by rw [hpoint, hsettles]))]
      exact hof

/-- The version is committed. -/
theorem committed (h : s.Kept updates) (hn : s.calls[n]? = some c) (hready : c.ready = none)
    {previous : Option Stored} (hstage : c.stage = .advancing previous) :
    Kept updates { s.setCall n { c with ready := some .accounting, carried := [] } with
      stored := advance s.stored c.pts c.snapshot
      log := .commit ⟨previous, c.pts, c.snapshot⟩ :: s.log } := by
  have hfits := h.fits hn
  have hpoint : c.point = .advancing previous := (Call.point_of_ready hready).trans hstage
  have hsettles : c.point.settles = true := by rw [hpoint]; rfl
  obtain ⟨hread, hlt⟩ : s.stored = previous ∧ ∀ st, previous = some st → st.pts < c.pts := by
    have hreads := hfits.reads
    rw [hpoint] at hreads
    exact hreads
  subst hread
  have hstored : advance s.stored c.pts c.snapshot =
      some ⟨c.snapshot.fingerprint, c.snapshot.chosen, c.pts⟩ :=
    if_pos (by rw [Option.all_eq_true]; exact fun st hst => decide_eq_true (hlt st hst))
  constructor
  · refine h.tended.executed hn rfl rfl rfl (fun _ h => h)
      (fun _ h => List.mem_cons_of_mem _ h) (.inr ⟨by rw [hstage]; rfl, fun st hst => ?_⟩)
      (hfits.next hready (by rw [hstage]; rfl) (fun _ h => h) ?_ rfl nofun nofun)
    · exact ⟨_, hstored, Nat.le_of_lt (hlt st hst)⟩
    · exact ⟨_, hstored, Nat.le_refl _⟩
  · exact h.inbox
  · intro pts hpts
    obtain ⟨st, hst, hle⟩ := h.accounted pts hpts
    exact ⟨_, hstored, Nat.le_trans hle (Nat.le_of_lt (hlt st hst))⟩
  · rw [hstored, hfits.told (.inr hsettles)]
    refine h.logged.commit hlt (hfits.known hsettles) fun st hst => ?_
    have hcarries := hfits.carries
    rw [hpoint, hst, hfits.told (.inr hsettles)] at hcarries
    exact ⟨c.carried, hcarries, hfits.logged⟩

/-- A statement of the call on the inbox, behind which nothing waits inside. -/
theorem inboxed (h : s.Kept updates) (hn : s.calls[n]? = some c)
    {d : Call} {inbox : Inbox} {accounted : List Nat}
    (hinbox : inbox.Keeps updates s.remembered accounted)
    (haccounted : ∀ pts ∈ accounted, ∃ st, s.stored = some st ∧ pts ≤ st.pts)
    (hfits : d.Fits updates { s.setCall n d with inbox, accounted })
    (hstage : d.stage = c.stage) :
    Kept updates { s.setCall n d with inbox, accounted } where
  tended := h.tended.executed hn rfl hstage rfl (fun _ h => h) (fun _ h => h) (.inl rfl) hfits
  inbox := hinbox
  accounted := haccounted
  logged := h.logged

theorem remembering (h : s.Kept updates) (hn : s.calls[n]? = some c) (hready : c.ready = none)
    (hstage : c.stage = .remembering) (now : Int) :
    Kept updates { s.setCall n { c with ready := some .acquiring } with
      inbox := s.inbox.remember c.pts c.snapshot now, remembered := c.pts :: s.remembered } := by
  have hfits := h.fits hn
  have hpoint : c.point = .remembering := (Call.point_of_ready hready).trans hstage
  have htold := hfits.told (.inl hpoint)
  have hcarries := hfits.carries
  rw [hpoint] at hcarries
  constructor
  · refine h.tended.executed hn rfl rfl rfl (fun _ h => List.mem_cons_of_mem _ h) (fun _ h => h)
      (.inl rfl) ⟨fun _ => htold, fun _ => List.mem_cons_self, fun row hrow => ?_, trivial,
        hcarries, hfits.logged, nofun⟩
    exact (hfits.rest row hrow).imp_right (List.mem_cons_of_mem _)
  · rw [htold]
    exact h.inbox.remember c.pts now
  · exact h.accounted
  · exact h.logged.remember c.pts

theorem claiming (h : s.Kept updates) (hn : s.calls[n]? = some c) (hready : c.ready = none)
    (hstage : c.stage = .claiming) (now : Int) {claimed : List Nat}
    (hdue : ∀ pts ∈ claimed, (s.inbox.get? pts).any (Inbox.due · now) = true) :
    Kept updates { s.setCall n { c with
        ready := some .ended
        rest := claimed.filterMap fun pts =>
          (s.inbox.get? pts).map fun row => (pts, row.snapshot) } with
      inbox := claimed.foldl (Inbox.claim · now LEASE_MS ·) s.inbox } := by
  have hopen (pts : Nat) (hpts : pts ∈ claimed) (row : Row) (hrow : s.inbox.get? pts = some row) :
      row.state ≠ .accounted := by
    have hrow' := hdue pts hpts
    rw [hrow, Option.any_some, Inbox.due] at hrow'
    intro hdone
    rw [hdone] at hrow'
    cases hrow'
  refine h.inboxed hn (h.inbox.claims now LEASE_MS claimed hopen) h.accounted ?_ rfl
  refine Call.Fits.idle .ended rfl rfl (fun row hrow => ?_) nofun ?_ rfl
  · obtain ⟨pts, hpts, hmap⟩ := List.mem_filterMap.mp hrow
    obtain ⟨r, hr, rfl⟩ := Option.map_eq_some_iff.mp hmap
    exact ⟨(h.inbox.row pts r hr).2 (hopen pts hpts r hr), (h.inbox.row pts r hr).1⟩
  · have hcarries := (h.fits hn).carries
    rw [Call.point_of_ready hready, hstage] at hcarries
    exact hcarries

/-- A statement behind the section: the call says what it has left. -/
theorem settled (h : s.Kept updates) (hn : s.calls[n]? = some c)
    (hcarries : c.point.Carries c.pts c.snapshot c.carried → c.carried = []) {stage : Stage}
    (hstage : stage = .dropping ∨ stage = .ended)
    {rest : List (Nat × Snapshot)} (hrest : rest ⊆ c.rest) {inbox : Inbox} {accounted : List Nat}
    (hinbox : inbox.Keeps updates s.remembered accounted)
    (haccounted : ∀ pts ∈ accounted, ∃ st, s.stored = some st ∧ pts ≤ st.pts) :
    Kept updates { s.setCall n { c with ready := some stage, rest } with inbox, accounted } := by
  refine h.inboxed hn hinbox haccounted ?_ rfl
  refine Call.Fits.idle stage ?_ ?_ (fun row hrow => (h.fits hn).rest row (hrest hrow)) ?_
    (hcarries (h.fits hn).carries) rfl
  · rcases hstage with rfl | rfl <;> rfl
  · rcases hstage with rfl | rfl <;> rfl
  · rcases hstage with rfl | rfl <;> nofun

/-- A baseline is written where there is nothing. -/
theorem seeding (h : s.Kept updates) (hn : s.calls[n]? = some c) (hstage : c.stage = .seeding)
    (hcarried : c.carried = []) :
    Kept updates { s.setCall n { c with ready := some .ended } with
      stored := seed s.stored c.snapshot.fingerprint c.snapshot.chosen } := by
  have hfits : Call.Fits updates
      { s.setCall n { c with ready := some .ended } with
        stored := seed s.stored c.snapshot.fingerprint c.snapshot.chosen }
      { c with ready := some .ended } :=
    .idle .ended rfl rfl (h.fits hn).rest nofun hcarried rfl
  have hgrows (st : Stored) (hst : s.stored = some st) : seed s.stored
      c.snapshot.fingerprint c.snapshot.chosen = some st := by
    rw [hst]
    rfl
  constructor
  · exact h.tended.executed hn rfl rfl rfl (fun _ h => h) (fun _ h => h)
      (.inr ⟨by rw [hstage]; rfl, fun st hst => ⟨st, hgrows st hst, Nat.le_refl _⟩⟩) hfits
  · exact h.inbox
  · intro pts hpts
    obtain ⟨st, hst, hle⟩ := h.accounted pts hpts
    exact ⟨st, hgrows st hst, hle⟩
  · exact h.logged.seed _ _

/-- One await. -/
theorem perform (h : s.Kept updates) (hn : s.calls[n]? = some c) (hready : c.ready = none)
    {now : Int} {claimed : List Nat} {named : Bool}
    (hperform : s.perform n c now claimed named = some t) : t.Kept updates := by
  have hfits := h.fits hn
  have hreads := hfits.reads
  have hcarries := hfits.carries
  rw [Call.point_of_ready hready] at hreads hcarries
  obtain ⟨stage, pts, snapshot, rest, ready, carried⟩ := c
  cases stage <;> simp only [State.perform] at hperform
  case remembering =>
    obtain rfl := Option.some.inj hperform
    exact h.remembering hn hready rfl now
  case claiming =>
    split at hperform
    · next hdue =>
      obtain rfl := Option.some.inj hperform
      exact h.claiming hn hready rfl now hdue.2
    · cases hperform
  case getting =>
    obtain rfl := Option.some.inj hperform
    refine h.looked hn hready rfl (afterGet_reads ..) ?_ fun _ => rfl
    obtain rfl : carried = [] := hcarries
    exact afterGet_carries ..
  case editing previous text =>
    obtain rfl := Option.some.inj hperform
    obtain ⟨hread, hlt⟩ := hreads
    obtain ⟨hedit, rfl⟩ : previous.edit snapshot = some text ∧ carried = [] := hcarries
    refine h.called hn hready rfl rfl rfl (Option.ite_none_right_eq_some.mp hedit).2
      (fun st hst => Option.some.inj (hread.symm.trans hst) ▸ hlt)
      (afterEdit_reads _ hread hlt) ?_
    have hediting : previous.editing pts snapshot = [.edit pts text] := by
      rw [Stored.editing, hedit]
      rfl
    have hafter := afterEdit_carries previous pts snapshot
    rw [hediting] at hafter
    exact hafter
  case mapping previous =>
    obtain ⟨hread, hlt⟩ := hreads
    obtain ⟨hmoved, rfl⟩ :
      previous.moved snapshot = true ∧ carried = previous.editing pts snapshot := hcarries
    split at hperform
    · obtain rfl := Option.some.inj hperform
      exact h.looked hn hready rfl ⟨hread, hlt⟩ ⟨hmoved, rfl⟩ fun _ => rfl
    · obtain rfl := Option.some.inj hperform
      refine h.called hn hready rfl rfl rfl trivial
        (fun st hst => Option.some.inj (hread.symm.trans hst) ▸ hlt)
        (afterReaction_reads hread hlt) ?_
      show previous.Asks pts snapshot _
      rw [Stored.Asks, if_pos hmoved]
      exact .inr rfl
  case reacting previous =>
    obtain ⟨hread, hlt⟩ := hreads
    obtain ⟨hmoved, rfl⟩ :
      previous.moved snapshot = true ∧ carried = previous.editing pts snapshot := hcarries
    obtain rfl := Option.some.inj hperform
    refine h.called hn hready rfl rfl rfl rfl
      (fun st hst => Option.some.inj (hread.symm.trans hst) ▸ hlt)
      (afterReaction_reads hread hlt) ?_
    show previous.Asks pts snapshot _
    rw [Stored.Asks, if_pos hmoved]
    exact .inl rfl
  case advancing previous =>
    obtain ⟨hread, hlt⟩ := hreads
    split at hperform
    · obtain rfl := Option.some.inj hperform
      exact h.committed hn hready rfl
    · next hold =>
      refine absurd ?_ hold
      rw [hread, Option.all_eq_true]
      exact fun st hst => decide_eq_true (hlt st hst)
  case accounting =>
    obtain rfl := Option.some.inj hperform
    exact h.settled hn (fun _ => hcarries) (.inl rfl) (List.Subset.refl _)
      (h.inbox.account pts) (List.forall_mem_cons.mpr ⟨hreads, h.accounted⟩)
  case dropping =>
    obtain rfl := Option.some.inj hperform
    exact h.settled hn (fun _ => hcarries) (.inr rfl) (List.Subset.refl _) (h.inbox.drop pts)
      h.accounted
  case reopening =>
    obtain rfl := Option.some.inj hperform
    exact h.settled hn (fun _ => hcarries) (.inr rfl) (List.nil_subset _)
      (h.inbox.reopen pts _) h.accounted
  case seeding =>
    obtain rfl := Option.some.inj hperform
    exact h.seeding hn rfl hcarries
  case acquiring | baseline | ended => cases hperform

/-- The lock is free, and the call is given it. -/
theorem enters (h : s.Kept updates) (hn : s.calls[n]? = some c) (hfree : s.holder = none)
    {stage : Stage} (hin : stage.inside = true)
    (hfits : Call.Fits updates { s.setCall n { c with stage } with holder := some n }
      { c with stage }) :
    Kept updates { s.setCall n { c with stage } with holder := some n } := by
  refine h.of_tended ?_ rfl rfl rfl rfl rfl
  refine h.tended.set hn rfl (fun _ h => h) (fun _ h => h) (.inl rfl) (fun m hm => ?_)
    ⟨fun _ => rfl, fun _ => hin⟩ hfits
  rw [hfree]
  exact ⟨fun he => absurd (Option.some.inj he).symm hm, nofun⟩

theorem enter (h : s.Kept updates) (ht : (sys updates).step s (.enter n) = some t) :
    t.Kept updates := by
  simp only [sys, State.step] at ht
  split at ht
  · next c hn =>
    split at ht
    · next hfree =>
      rw [Bool.and_eq_true, Option.isNone_iff_eq_none, Option.isNone_iff_eq_none] at hfree
      obtain ⟨hholder, hready⟩ := hfree
      have hfits := h.fits hn
      have hpoint := Call.point_of_ready hready
      have hcarries := hfits.carries
      split at ht
      · next hstage =>
        obtain rfl := Option.some.inj ht
        rw [hpoint, hstage] at hcarries
        have hpoint' : ({ c with stage := .getting } : Call).point = .getting :=
          Call.point_of_ready hready
        refine h.enters hn hholder rfl ⟨fun _ => hfits.told (.inr (by rw [hpoint, hstage]; rfl)),
          fun _ => hfits.known (by rw [hpoint, hstage]; rfl), hfits.rest, ?_, ?_, hfits.logged,
          fun _ => rfl⟩
        · rw [hpoint']
          trivial
        · rw [hpoint']
          exact hcarries
      · next hstage =>
        obtain rfl := Option.some.inj ht
        rw [hpoint, hstage] at hcarries
        have hpoint' : ({ c with stage := .seeding } : Call).point = .seeding :=
          Call.point_of_ready hready
        refine h.enters hn hholder rfl ⟨fun hs => ?_, fun hs => ?_, hfits.rest, ?_, ?_,
          hfits.logged, fun _ => rfl⟩
        · rw [hpoint'] at hs
          rcases hs with hs | hs <;> cases hs
        · rw [hpoint'] at hs
          cases hs
        · rw [hpoint']
          trivial
        · rw [hpoint']
          exact hcarries
      · cases ht
    · cases ht
  · cases ht

/-- A call that is over goes on to what else it has claimed. -/
theorem goOn_fits (hfits : c.Fits updates s) (hcarried : c.carried = []) :
    c.goOn.Fits updates s ∧ c.goOn.stage.inside = false := by
  unfold Call.goOn
  split
  · next hrest => exact ⟨.idle .ended rfl rfl hfits.rest nofun hcarried rfl, rfl⟩
  · next pts snapshot rest hrest =>
    have hrows := hfits.rest
    rw [hrest, List.forall_mem_cons] at hrows
    obtain ⟨⟨htold, hknown⟩, hrows⟩ := hrows
    exact ⟨⟨fun _ => htold, fun _ => hknown, hrows, trivial, rfl, nofun, nofun⟩, rfl⟩

theorem resume (h : s.Kept updates) (ht : (sys updates).step s (.resume n) = some t) :
    t.Kept updates := by
  simp only [sys, State.step] at ht
  split at ht
  · next c hn =>
    obtain ⟨stage, hready, rfl⟩ := Option.map_eq_some_iff.mp ht
    have hfits := h.fits hn
    have hpoint : c.point = stage := by rw [Call.point, hready, Option.getD_some]
    refine h.of_tended ?_ rfl rfl rfl rfl rfl
    split
    · next hended =>
      have hcarries := hfits.carries
      rw [hpoint, hended] at hcarries
      obtain ⟨hnext, hout⟩ := goOn_fits hfits hcarries
      refine h.tended.go hn (fun hin => ?_) (hnext.frame (fun _ h => h) (fun _ h => h) (.inl rfl))
      rw [hout] at hin
      cases hin
    · have hsame : ({ c with stage, ready := none } : Call).point = c.point := hpoint.symm
      refine h.tended.go hn (fun hin => hfits.inside (hpoint ▸ hin))
        ⟨fun hs => hfits.told (hsame ▸ hs), fun hs => hfits.known (hsame ▸ hs), hfits.rest,
          ?_, ?_, hfits.logged, fun hin => hin⟩
      · rw [hsame]
        exact hfits.reads
      · rw [hsame]
        exact hfits.carries
  · cases ht

/-- A failure is written on the row, or the call is over. -/
theorem failed_cases (c : Call) (cancelled : Bool) :
    failed c cancelled = .ended ∨ failed c cancelled = .reopening := by
  unfold failed
  cases cancelled <;> split <;> first | exact .inl rfl | exact .inr rfl

theorem fault (h : s.Kept updates) {cancelled : Bool}
    (ht : (sys updates).step s (.fault n cancelled) = some t) : t.Kept updates := by
  simp only [sys, State.step] at ht
  split at ht
  · next c hn =>
    split at ht
    · cases ht
    · obtain rfl := Option.some.inj ht
      refine h.of_tended ?_ rfl rfl rfl rfl rfl
      have hfailed := failed_cases c cancelled
      refine h.tended.go hn (fun hin => ?_)
        (.idle (failed c cancelled) ?_ ?_ nofun (fun hs => ?_) rfl rfl)
      · rcases hfailed with hf | hf <;> rw [show _ = _ from hf] at hin <;> cases hin
      · rcases hfailed with hf | hf <;> rw [hf] <;> rfl
      · rcases hfailed with hf | hf <;> rw [hf] <;> rfl
      · rcases hfailed with hf | hf <;> rw [hf] at hs <;> cases hs
  · cases ht

/-- What one step keeps, whatever it is. -/
theorem step (h : s.Kept updates) {e : Event} (ht : (sys updates).step s e = some t) :
    t.Kept updates := by
  cases e with
  | update pts =>
    obtain rfl := Option.some.inj ht
    refine h.of_tended ?_ rfl rfl rfl rfl rfl
    exact h.tended.append rfl rfl rfl rfl rfl rfl
      (.idle .remembering rfl rfl nofun (fun _ => rfl) rfl rfl)
  | drain =>
    obtain rfl := Option.some.inj ht
    refine h.of_tended ?_ rfl rfl rfl rfl rfl
    exact h.tended.append rfl rfl rfl rfl rfl rfl (.idle .claiming rfl rfl nofun nofun rfl rfl)
  | seed fingerprint chosen =>
    obtain rfl := Option.some.inj ht
    refine h.of_tended ?_ rfl rfl rfl rfl rfl
    exact h.tended.append rfl rfl rfl rfl rfl rfl (.idle .baseline rfl rfl nofun nofun rfl rfl)
  | enter n => exact h.enter ht
  | exec n now claimed named =>
    simp only [sys, State.step] at ht
    split at ht
    · next c hn =>
      split at ht
      · next hready => exact h.perform hn (Option.isNone_iff_eq_none.mp hready) ht
      · cases ht
    · cases ht
  | resume n => exact h.resume ht
  | fault n cancelled => exact h.fault ht
  | crash =>
    obtain rfl := Option.some.inj ht
    exact h.of_tended ⟨nofun, nofun, nofun⟩ rfl rfl rfl rfl rfl
  | sweep =>
    obtain rfl := Option.some.inj ht
    refine ⟨⟨fun m u hu => ?_, h.tended.lock, h.tended.held⟩, h.inbox.sweep, h.accounted, h.logged⟩
    exact (h.tended.fits m u hu).frame (fun _ h => h) (fun _ h => h) (.inl rfl)

end Kept

theorem kept {s : State} {ok : State → Event → Prop} (h : Run.Reaches (sys updates) ok s) :
    s.Kept updates :=
  h.invariant start fun _ _ _ hs _ ht => hs.step ht

end State

/-! ## what every run keeps -/

/-- What is stored is a baseline, or the last version that was committed. -/
theorem Logged.last {stored : Option Stored} {remembered : List Nat} {log : List Entry}
    (h : Logged updates stored remembered log) {st : Stored} (hst : stored = some st) :
    st.pts = 0 ∨ st.pts ∈ remembered ∧
      st = ⟨(updates st.pts).fingerprint, (updates st.pts).chosen, st.pts⟩ := by
  have hchained := h.chained
  cases hlog : log.filterMap Entry.commit? with
  | nil =>
    rw [hlog] at hchained
    exact .inl (hchained st hst)
  | cons c earlier =>
    rw [hlog] at hchained
    have hmem : c ∈ log.filterMap Entry.commit? := by rw [hlog]; exact List.mem_cons_self
    obtain ⟨entry, hentry, hc⟩ := List.mem_filterMap.mp hmem
    cases entry with
    | effect e => cases hc
    | commit c' =>
      obtain rfl := Option.some.inj hc
      obtain rfl : c'.after = st := Option.some.inj (hchained.1.symm.trans hst)
      obtain ⟨hremembered, hsnapshot⟩ := h.told _ hentry
      refine .inr ⟨hremembered, ?_⟩
      show c'.after = ⟨(updates c'.pts).fingerprint, (updates c'.pts).chosen, c'.pts⟩
      rw [Commit.after, show c'.snapshot = updates c'.pts from hsnapshot]

/-- **An update that was written down is finished, or is still there to be finished.**  What is
accounted for is settled: the stored version is that one or a later one.  Where the latest
update is accounted for, what is stored is what it says. -/
theorem remembered_or_settled {s : State} (h : Run.Reaches (sys updates) Run.anyStep s) :
    (∀ pts ∈ s.remembered, pts ∈ s.accounted ∨
      ∃ row, s.inbox.get? pts = some row ∧ row.state ≠ .accounted ∧
        row.snapshot = updates pts) ∧
    (∀ pts ∈ s.accounted, ∃ stored, s.stored = some stored ∧ pts ≤ stored.pts) ∧
    (∀ pts ∈ s.accounted, 0 < pts → (∀ other ∈ s.remembered, other ≤ pts) →
      s.stored = some ⟨(updates pts).fingerprint, (updates pts).chosen, pts⟩) := by
  have hkept := State.kept h
  refine ⟨fun pts hpts => ?_, hkept.accounted, fun pts hpts hpos hlatest => ?_⟩
  · refine (hkept.inbox.kept pts hpts).imp_right ?_
    rintro ⟨row, hrow, hopen⟩
    exact ⟨row, hrow, hopen, (hkept.inbox.row pts row hrow).2 hopen⟩
  · obtain ⟨st, hst, hle⟩ := hkept.accounted pts hpts
    obtain hzero | ⟨hmem, hsays⟩ := hkept.logged.last hst
    · omega
    · have hsame : st.pts = pts := Nat.le_antisymm (hlatest _ hmem) hle
      rw [hst, hsays, hsame]

/-- A message that was edited and reacted to in one update. -/
def twoVersions : Updates
  | 0 | 1 => ⟨"first", [], some "hi"⟩
  | _ => ⟨"second", [⟨.emoji, "👍"⟩], some "hello"⟩

/-- The process dies with the edit called for and not committed; the next one drains. -/
def diedEditing : List Event :=
  [.update 1, .exec 0 10 [] true, .resume 0, .enter 0, .exec 0 10 [] true, .resume 0,
    .exec 0 10 [] true, .resume 0, .exec 0 10 [] true, .resume 0, .exec 0 10 [] true, .resume 0,
    .update 2, .exec 1 20 [] true, .resume 1, .enter 1, .exec 1 20 [] true, .resume 1,
    .exec 1 20 [] true, .crash,
    .drain, .exec 0 30 [2] true, .resume 0, .enter 0, .exec 0 30 [] true, .resume 0,
    .exec 0 30 [] true, .resume 0, .exec 0 30 [] true, .resume 0, .exec 0 30 [] true, .resume 0,
    .exec 0 30 [] true, .resume 0, .exec 0 30 [] true, .resume 0, .exec 0 30 [] true, .resume 0]

theorem settled_after_death : ∃ s : State, s.remembered = [2, 1] ∧ s.accounted = [2, 1] ∧
    s.stored = some ⟨"second", [⟨.emoji, "👍"⟩], 2⟩ := by
  obtain ⟨s, hs, hfinal⟩ := Run.Reaches.exists_of_play (sys twoVersions) (fun _ _ => true)
    diedEditing (fun s => s.remembered = [2, 1] && s.accounted = [2, 1]) (by decide +kernel)
  simp only [Bool.and_eq_true, decide_eq_true_eq] at hfinal
  obtain ⟨hremembered, haccounted⟩ := hfinal
  refine ⟨s, hremembered, haccounted, ?_⟩
  refine (remembered_or_settled (hs.mono fun _ _ _ => trivial)).2.2 2 ?_ (by decide) ?_
  · rw [haccounted]
    exact List.mem_cons_self
  · rw [hremembered]
    decide

/-- **The crash contract**: whatever happens to the calls, a version is committed behind all
that its change asks of MAX, each change is taken from the version committed before it, and
behind a commit nothing is called for but by later versions. -/
theorem committed_behind_effects {s : State} (h : Run.Reaches (sys updates) Run.anyStep s) :
    Logged updates s.stored s.remembered s.log :=
  (State.kept h).logged

theorem called_again_after_death : ∃ s : State, Logged twoVersions s.stored s.remembered s.log ∧
    s.log.filterMap Entry.effect? =
      [.reaction 2 (some ⟨.emoji, "👍"⟩), .edit 2 "hello", .edit 2 "hello"] := by
  obtain ⟨s, hs, hfinal⟩ := Run.Reaches.exists_of_play (sys twoVersions) (fun _ _ => true)
    diedEditing (fun s => s.log.filterMap Entry.effect? =
      [.reaction 2 (some ⟨.emoji, "👍"⟩), .edit 2 "hello", .edit 2 "hello"]) (by decide +kernel)
  exact ⟨s, committed_behind_effects (hs.mono fun _ _ _ => trivial), of_decide_eq_true hfinal⟩

end Telemax.OwnerUpdates
