import Telemax.Lib.Tasks
import Telemax.Provisioning.Announcements

/-!
# Telemax.Provisioning.OneAnswer

`asked_at` only grows, and every note of a run bounds it from below.  What has
been read back stays below it while the next question is between its statements,
so no two read the same.
-/

namespace Telemax.Provisioning.Announcements

open Telemax.Provisioning.Pending (Contact ContactState Disk)

/-! ## the order of the notes -/

/-- What `asked_at` is at least from then on. -/
def Note.floor : Note → Int
  | .asked _ revision => revision.getD 0
  | .consumed revision => revision + 1
  | .mark askedAt => askedAt

def Note.Follows (e e' : Note) : Prop :=
  match e' with
  | .asked _ (some revision) => e.floor < revision
  | .asked _ none => e.floor ≤ 0
  | .consumed revision => e.floor ≤ revision
  | .mark askedAt => e.floor ≤ askedAt

/-- The calls of `note_asked` that have read the revision back and not returned it yet. -/
def Task.drawn (t : Task) : Option Int :=
  match t.call, t.stage with
  | .noteAsked, .read contact => some (revisionOf contact)
  | _, _ => none

/-- The revisions that have been read back. -/
def State.known (s : State) : List Int :=
  s.revisions.map (·.2) ++ s.tasks.filterMap Task.drawn

structure Kept (chat : Int) (s : State) : Prop where
  notes : s.notes.Pairwise Note.Follows
  below : ∀ e ∈ s.notes, e.floor ≤ s.askedAt chat
  nodup : s.known.Nodup
  known : ∀ r ∈ s.known, r ≤ s.askedAt chat
  one : ∀ {m n : Nat} {t u : Task}, s.tasks[m]? = some t → s.tasks[n]? = some u → t.between = true →
    u.between = true → m = n
  fresh : ∀ {n : Nat} {t : Task}, s.tasks[n]? = some t → t.between = true → ∀ r ∈ s.known, r < s.askedAt chat
  nobody : s.disk.contacts chat = none → s.blank = false →
    s.known = [] ∧ ∀ {n : Nat} {t : Task}, s.tasks[n]? = some t → t.between = false

/-! ## one statement -/

section

variable {chat stamp : Int} {d : Disk} {call : Call}

@[simp] theorem updateContact_contacts (change : Contact → Contact) :
    (d.updateContact chat change).contacts chat = (d.contacts chat).map change := by
  simp [Disk.updateContact]

@[simp] theorem revisionOf_some (c : Contact) : revisionOf (some c) = c.askedAt.getD 0 := rfl

@[simp] theorem revisionOf_none : revisionOf none = 0 := rfl

/-- Rows stay. -/
theorem write_stored (call : Call) (stamp : Int) (h : (d.contacts chat).isSome = true) :
    ((call.write chat stamp d).1.contacts chat).isSome = true := by
  cases call with
  | noteSeen user name => simp [Call.write, Disk.noteSeen]
  | noteAsked => simpa [Call.write, Disk.perform] using h
  | setState state => simpa [Call.write, Disk.perform] using h
  | consumeAnnouncement revision =>
    rw [Call.write, consume]
    split
    · simpa using h
    · exact h

/-- A question raises the revision, where there is a row to write it to. -/
theorem noteAsked_write (chat stamp : Int) (d : Disk) :
    ((Call.noteAsked.write chat stamp d).2 = 1 ∧
      revisionOf (d.contacts chat) < revisionOf ((Call.noteAsked.write chat stamp d).1.contacts chat)) ∨
    ((Call.noteAsked.write chat stamp d).2 = 0 ∧ d.contacts chat = none ∧
      (Call.noteAsked.write chat stamp d).1.contacts chat = none) := by
  cases hrow : d.contacts chat with
  | none =>
    right
    simp [Call.write, Call.write.stored, Disk.perform, hrow]
  | some c =>
    have hmax : c.askedAt.getD 0 < max stamp (c.askedAt.getD 0 + 1) := by omega
    refine .inl ⟨by simp [Call.write, Call.write.stored, Disk.perform, hrow], hmax.trans_eq ?_⟩
    simp [Call.write, Call.write.stored, Disk.perform, hrow]

/-- An answer is taken for the present revision only, and raises it. -/
theorem consume_write {revision : Int}
    (h : ((Call.consumeAnnouncement revision).write chat stamp d).2 = 1) :
    revisionOf (d.contacts chat) = revision ∧ revision <
      revisionOf (((Call.consumeAnnouncement revision).write chat stamp d).1.contacts chat) := by
  simp only [Call.write, consume] at *
  split at h
  · rename_i hrevision
    rw [if_pos hrevision]
    cases hrow : d.contacts chat with
    | none => simp [hrow] at hrevision
    | some c =>
      rw [hrow, Option.bind_some] at hrevision
      have hmax : revision < max stamp (revision + 1) := by omega
      refine ⟨by simp [hrevision], hmax.trans_eq ?_⟩
      simp [hrow, hrevision]
  · cases h

/-- `asked_at` does not go back, unless `set_state` is given an older stamp. -/
theorem write_askedAt (hguard : call = .setState .asked → (d.contacts chat).isSome = true →
      revisionOf (d.contacts chat) ≤ stamp) :
    revisionOf (d.contacts chat) ≤ revisionOf ((call.write chat stamp d).1.contacts chat) := by
  cases call with
  | noteSeen user name =>
    cases hrow : d.contacts chat <;> simp [Call.write, Disk.noteSeen, hrow]
  | noteAsked =>
    rcases noteAsked_write chat stamp d with ⟨-, h⟩ | ⟨-, hnone, h⟩
    · omega
    · simp [hnone, h]
  | setState state =>
    cases hrow : d.contacts chat with
    | none => simp [Call.write, Disk.perform, hrow]
    | some c =>
      by_cases hasked : state = .asked
      · subst hasked
        simpa [Call.write, Disk.perform, hrow] using hguard rfl (by simp [hrow])
      · simp [Call.write, Disk.perform, hrow, hasked]
  | consumeAnnouncement revision =>
    by_cases h : ((Call.consumeAnnouncement revision).write chat stamp d).2 = 1
    · have := consume_write h
      omega
    · simp only [Call.write, consume] at *
      split at h
      · exact absurd rfl h
      · rename_i hother
        exact Int.le_of_eq (by rw [if_neg hother])

/-- What a write leaves to be seen follows on what was seen before. -/
theorem noted_follows {n : Nat} {e e' : Note}
    (hguard : call = .setState .asked → (d.contacts chat).isSome = true →
      revisionOf (d.contacts chat) ≤ stamp)
    (he : e.floor ≤ revisionOf (d.contacts chat))
    (he' : e' ∈ State.noted n call (call.write chat stamp d).2
      (revisionOf ((call.write chat stamp d).1.contacts chat))) :
    e.Follows e' := by
  have hmono := write_askedAt hguard
  cases call with
  | noteSeen user name =>
    rw [State.noted, List.mem_singleton] at he'
    subst he'
    simp only [Note.Follows]
    omega
  | setState state =>
    rw [State.noted, List.mem_singleton] at he'
    subst he'
    simp only [Note.Follows]
    omega
  | noteAsked =>
    rcases noteAsked_write chat stamp d with ⟨hone, h⟩ | ⟨hzero, hnone, -⟩
    · rw [State.noted, if_pos hone] at he'
      simp only [List.mem_cons, List.not_mem_nil, or_false] at he'
      rcases he' with rfl | rfl <;> simp only [Note.Follows] <;> omega
    · rw [State.noted, if_neg (by omega), List.mem_singleton] at he'
      subst he'
      rw [hnone] at he
      exact he
  | consumeAnnouncement revision =>
    by_cases hone : ((Call.consumeAnnouncement revision).write chat stamp d).2 = 1
    · have := consume_write hone
      rw [State.noted, if_pos hone] at he'
      simp only [List.mem_cons, List.not_mem_nil, or_false] at he'
      rcases he' with rfl | rfl <;> simp only [Note.Follows] <;> omega
    · rw [State.noted, if_neg hone] at he'
      cases he'

/-- Where `asked_at` moves, the mark says so. -/
theorem noted_mark (n : Nat) (call : Call) (chat stamp : Int) (d : Disk) :
    revisionOf ((call.write chat stamp d).1.contacts chat) = revisionOf (d.contacts chat) ∨
      Note.mark (revisionOf ((call.write chat stamp d).1.contacts chat)) ∈
        State.noted n call (call.write chat stamp d).2
          (revisionOf ((call.write chat stamp d).1.contacts chat)) := by
  cases call with
  | noteSeen user name => exact .inr List.mem_cons_self
  | setState state => exact .inr List.mem_cons_self
  | noteAsked =>
    rcases noteAsked_write chat stamp d with ⟨hone, -⟩ | ⟨-, hnone, hnone'⟩
    · rw [State.noted, if_pos hone]
      exact .inr (List.mem_cons_of_mem _ List.mem_cons_self)
    · rw [hnone, hnone']
      exact .inl rfl
  | consumeAnnouncement revision =>
    by_cases hone : ((Call.consumeAnnouncement revision).write chat stamp d).2 = 1
    · rw [State.noted, if_pos hone]
      exact .inr (List.mem_cons_of_mem _ List.mem_cons_self)
    · simp only [Call.write, consume] at hone ⊢
      split at hone
      · exact absurd rfl hone
      · next hother => exact .inl (by rw [if_neg hother])

/-- And it is in order, and bounds `asked_at`. -/
theorem noted_kept (n : Nat) (call : Call) (chat stamp : Int) (d : Disk) :
    (State.noted n call (call.write chat stamp d).2
      (revisionOf ((call.write chat stamp d).1.contacts chat))).Pairwise Note.Follows ∧
    ∀ e ∈ State.noted n call (call.write chat stamp d).2
      (revisionOf ((call.write chat stamp d).1.contacts chat)),
      e.floor ≤ revisionOf ((call.write chat stamp d).1.contacts chat) := by
  cases call with
  | noteSeen user name => simp [State.noted, Note.floor]
  | setState state => simp [State.noted, Note.floor]
  | noteAsked =>
    rw [State.noted]
    rcases noteAsked_write chat stamp d with ⟨hone, -⟩ | ⟨hzero, -, hnone⟩
    · rw [if_pos hone]
      simp [Note.Follows, Note.floor]
    · rw [if_neg (by omega), hnone]
      simp [Note.floor]
  | consumeAnnouncement revision =>
    rw [State.noted]
    split
    · rename_i hone
      have := consume_write hone
      simp [Note.Follows, Note.floor]
      omega
    · simp

end

/-! ## one step -/

/-- What a write leaves. -/
theorem execute_written {chat stamp : Int} {s s' : State} {n : Nat} {call : Call}
    (hs' : s.execute chat n ⟨call, .writing stamp⟩ = some s') :
    s'.tasks = (s.setStage n ⟨call, .writing stamp⟩
        (.written (call.write chat stamp s.disk).2)).tasks ∧
      s'.revisions = s.revisions ∧
      s'.askedAt chat = revisionOf ((call.write chat stamp s.disk).1.contacts chat) ∧
      s'.notes = s.notes ++ State.noted n call (call.write chat stamp s.disk).2
        (revisionOf ((call.write chat stamp s.disk).1.contacts chat)) ∧
      s'.disk = (call.write chat stamp s.disk).1 ∧
      s'.blank = (s.blank || (call == .noteAsked && (call.write chat stamp s.disk).2 == 0)) := by
  simp only [State.execute, Option.some.injEq] at hs'
  subst hs'
  exact ⟨rfl, rfl, rfl, rfl, rfl, rfl⟩

namespace Kept

variable {chat : Int} {s : State} {n : Nat} {t : Task} {disk : Disk}

theorem known_append (c : Call) (stamp : Int) :
    State.known { s with tasks := s.tasks ++ [⟨c, .writing stamp⟩] } = s.known := by
  cases c <;> simp [State.known, Task.drawn]

/-- A task that changes while it has nothing in hand that was read back. -/
theorem known_set {stage : Stage} (ht : s.tasks[n]? = some t) (hold : t.drawn = none)
    (hnew : Task.drawn { t with stage } = none) : (s.setStage n t stage).known.Perm s.known := by
  have h := Tasks.filterMap_set (f := Task.drawn) (a := { t with stage }) ht
  rw [hold, hnew] at h
  exact h.append_left (s.revisions.map (·.2))

theorem known_read (contact : Option Contact) (ht : s.tasks[n]? = some t) (hold : t.drawn = none)
    (hcall : t.call = .noteAsked) :
    (s.setStage n t (.read contact)).known.Perm (revisionOf contact :: s.known) := by
  have h := Tasks.filterMap_set (f := Task.drawn) (a := { t with stage := .read contact }) ht
  have hnew : Task.drawn { t with stage := .read contact } = some (revisionOf contact) := by
    rw [Task.drawn, hcall]
  rw [hold, hnew] at h
  exact (h.append_left (s.revisions.map (·.2))).trans List.perm_middle

/-- A step that leaves the row and the notes alone, reads nothing back, and lets nobody in
between its two statements. -/
theorem quiet {s' : State} (h : Kept chat s) (hnotes : s'.notes = s.notes)
    (hrow : s'.disk.contacts chat = s.disk.contacts chat) (hblank : s'.blank = s.blank)
    (hnodup : s'.known.Nodup) (hknown : ∀ r ∈ s'.known, r ∈ s.known)
    (hbetween : ∀ {m : Nat} {u : Task}, s'.tasks[m]? = some u → u.between = true →
      ∃ u' : Task, s.tasks[m]? = some u' ∧ u'.between = true) : Kept chat s' := by
  have hasked : s'.askedAt chat = s.askedAt chat := by rw [State.askedAt, hrow, State.askedAt]
  refine ⟨hnotes ▸ h.notes, fun e he => ?_, hnodup, fun r hr => ?_, fun hm hn hu hv => ?_,
    fun hm hu r hr => ?_, fun hnone hfalse => ?_⟩
  · rw [hasked]
    exact h.below e (hnotes ▸ he)
  · rw [hasked]
    exact h.known r (hknown r hr)
  · obtain ⟨u, hm, hu⟩ := hbetween hm hu
    obtain ⟨v, hn, hv⟩ := hbetween hn hv
    exact h.one hm hn hu hv
  · obtain ⟨u, hm, hu⟩ := hbetween hm hu
    rw [hasked]
    exact h.fresh hm hu r (hknown r hr)
  · obtain ⟨hknown', hnobody⟩ := h.nobody (hrow ▸ hnone) (hblank ▸ hfalse)
    refine ⟨List.eq_nil_iff_forall_not_mem.mpr fun r hr => ?_, fun {m u} hm => ?_⟩
    · have := hknown r hr
      rw [hknown'] at this
      cases this
    · by_contra hu
      obtain ⟨v, hv, hbetween⟩ := hbetween hm (by simpa using hu)
      rw [hnobody hv] at hbetween
      cases hbetween

theorem quiet_set {stage : Stage} (h : Kept chat s) (ht : s.tasks[n]? = some t)
    (hold : t.drawn = none) (hnew : Task.drawn { t with stage } = none)
    (hbetween : Task.between { t with stage } = true → t.between = true) :
    Kept chat (s.setStage n t stage) := by
  have hperm := known_set ht hold hnew
  refine h.quiet rfl rfl rfl (hperm.nodup_iff.mpr h.nodup) (fun r hr => hperm.mem_iff.mp hr)
    fun hm hu => ?_
  rcases Tasks.set_cases hm with ⟨rfl, rfl⟩ | ⟨-, hm⟩
  · exact ⟨t, ht, hbetween hu⟩
  · exact ⟨_, hm, hu⟩

/-- A question is put only while no other is between its two statements. -/
theorem guarded_asked {stamp : Int} (ht : s.tasks[n]? = some ⟨.noteAsked, .writing stamp⟩)
    (hguard : s.guarded chat (.execute n) = true) :
    (∀ u ∈ s.tasks, u.between = false) ∧ (s.disk.contacts chat = none → s.blank = false) := by
  simp only [State.guarded, ht, Bool.and_eq_true, Bool.not_eq_true', List.any_eq_false] at hguard
  refine ⟨fun u hu => by simpa using hguard.1 u hu, fun hnone => ?_⟩
  simpa [hnone] using hguard.2

section

variable {s' : State} {call : Call} {stamp : Int}

/-- A state is not set to asked with an older stamp. -/
theorem guarded_back (ht : s.tasks[n]? = some ⟨call, .writing stamp⟩)
    (hguard : s.guarded chat (.execute n) = true) (hcall : call = .setState .asked)
    (hsome : (s.disk.contacts chat).isSome = true) : revisionOf (s.disk.contacts chat) ≤ stamp := by
  subst hcall
  simp only [State.guarded, ht, Bool.or_eq_true, decide_eq_true_eq] at hguard
  rcases hguard with hnone | hguard
  · rw [Option.isNone_iff_eq_none.mp hnone] at hsome
    cases hsome
  · exact hguard

/-- Who is between its two statements has put the question, or was there before. -/
theorem between_write (ht : s.tasks[n]? = some ⟨call, .writing stamp⟩)
    (hguard : s.guarded chat (.execute n) = true)
    (hs' : s.execute chat n ⟨call, .writing stamp⟩ = some s') {m : Nat} {u : Task}
    (hm : s'.tasks[m]? = some u) (hu : u.between = true) :
    call = .noteAsked ∧ m = n ∨ call ≠ .noteAsked ∧ s.tasks[m]? = some u := by
  rw [(execute_written hs').1] at hm
  rcases Tasks.set_cases hm with ⟨rfl, rfl⟩ | ⟨-, hold⟩
  · refine .inl ⟨?_, rfl⟩
    simp only [Task.between, Bool.and_eq_true, beq_iff_eq] at hu
    exact hu.1
  · refine .inr ⟨?_, hold⟩
    rintro rfl
    rw [(guarded_asked ht hguard).1 u (List.mem_of_getElem? hold)] at hu
    cases hu

theorem known_write (ht : s.tasks[n]? = some ⟨call, .writing stamp⟩)
    (hs' : s.execute chat n ⟨call, .writing stamp⟩ = some s') : s'.known.Perm s.known := by
  have hdrawn : Task.drawn ⟨call, .writing stamp⟩ = none := by cases call <;> rfl
  have hdrawn' : Task.drawn ⟨call, .written (call.write chat stamp s.disk).2⟩ = none := by
    cases call <;> rfl
  obtain ⟨htasks, hrevisions, -⟩ := execute_written hs'
  rw [State.known, htasks, hrevisions]
  exact known_set ht hdrawn hdrawn'

/-- Where nobody is stored and no question was put in vain, so it was before. -/
theorem none_of_write (hs' : s.execute chat n ⟨call, .writing stamp⟩ = some s')
    (hnone : s'.disk.contacts chat = none) (hfalse : s'.blank = false) :
    s.disk.contacts chat = none ∧ s.blank = false ∧ call ≠ .noteAsked := by
  obtain ⟨-, -, -, -, hdisk, hblank⟩ := execute_written hs'
  rw [hdisk] at hnone
  rw [hblank, Bool.or_eq_false_iff] at hfalse
  have hrow : s.disk.contacts chat = none := by
    by_contra hsome
    have hstored := write_stored call stamp (Option.isSome_iff_ne_none.mpr hsome)
    rw [hnone] at hstored
    cases hstored
  refine ⟨hrow, hfalse.1, ?_⟩
  rintro rfl
  rcases noteAsked_write chat stamp s.disk with ⟨-, hlt⟩ | ⟨hzero, -⟩
  · rw [hrow, hnone] at hlt
    exact absurd hlt (Int.lt_irrefl _)
  · simp [hzero] at hfalse

end

/-- A write is executed. -/
theorem write {stamp : Int} (h : Kept chat s) (ht : s.tasks[n]? = some t)
    (hstage : t.stage = .writing stamp)
    (hguard : s.guarded chat (.execute n) = true) {s' : State}
    (hs' : s.execute chat n t = some s') : Kept chat s' := by
  obtain ⟨call, stage⟩ := t
  obtain rfl : stage = .writing stamp := hstage
  obtain ⟨-, -, hasked, hnotes, -⟩ := execute_written hs'
  have hback := guarded_back ht hguard
  have hmono := write_askedAt hback
  have hkept := noted_kept n call chat stamp s.disk
  have hperm := known_write ht hs'
  refine ⟨?_, fun e he => ?_, hperm.nodup_iff.mpr h.nodup, fun r hr => ?_,
    fun {m k u v} hm hk hu hv => ?_, fun {m u} hm hu r hr => ?_, fun hnone hfalse => ?_⟩
  · rw [hnotes, List.pairwise_append]
    exact ⟨h.notes, hkept.1, fun e he e' he' => noted_follows hback (h.below e he) he'⟩
  · rw [hnotes] at he
    rw [hasked]
    rcases List.mem_append.mp he with he | he
    · exact Int.le_trans (h.below e he) hmono
    · exact hkept.2 e he
  · rw [hasked]
    exact Int.le_trans (h.known r (hperm.mem_iff.mp hr)) hmono
  · rcases between_write ht hguard hs' hm hu with ⟨hcall, rfl⟩ | ⟨hother, hm'⟩
    · rcases between_write ht hguard hs' hk hv with ⟨-, rfl⟩ | ⟨hother, -⟩
      · rfl
      · exact absurd hcall hother
    · rcases between_write ht hguard hs' hk hv with ⟨hcall, -⟩ | ⟨-, hk'⟩
      · exact absurd hcall hother
      · exact h.one hm' hk' hu hv
  · rw [hasked]
    have hr' := hperm.mem_iff.mp hr
    rcases between_write ht hguard hs' hm hu with ⟨rfl, -⟩ | ⟨-, hm'⟩
    · rcases noteAsked_write chat stamp s.disk with ⟨-, hlt⟩ | ⟨-, hnone, -⟩
      · exact Int.lt_of_le_of_lt (h.known r hr') hlt
      · -- nobody was asked about before
        rw [(h.nobody hnone ((guarded_asked ht hguard).2 hnone)).1] at hr'
        cases hr'
    · exact Int.lt_of_lt_of_le (h.fresh hm' hu r hr') hmono
  · obtain ⟨hrow, hblank, hcall⟩ := none_of_write hs' hnone hfalse
    obtain ⟨hknown, hnobody⟩ := h.nobody hrow hblank
    refine ⟨List.perm_nil.mp (hknown ▸ hperm), fun {m u} hm => ?_⟩
    by_contra hu
    rcases between_write ht hguard hs' hm (by simpa using hu) with ⟨hasks, -⟩ | ⟨-, hm⟩
    · exact hcall hasks
    · exact hu (hnobody hm)

/-- A `get` is executed: a question reads its revision back. -/
theorem reads (h : Kept chat s) (ht : s.tasks[n]? = some t) (hstage : t.stage = .reading) :
    Kept chat (s.setStage n t (.read (s.disk.contacts chat))) := by
  obtain ⟨call, stage⟩ := t
  obtain rfl : stage = .reading := hstage
  have hold : Task.drawn ⟨call, .reading⟩ = none := by cases call <;> rfl
  by_cases hcall : call = .noteAsked
  · subst hcall
    have hperm := known_read (s.disk.contacts chat) ht hold rfl
    have hfresh := h.fresh ht rfl
    have hnobody {m : Nat} {u : Task}
        (hm : (s.setStage n ⟨.noteAsked, .reading⟩ (.read (s.disk.contacts chat))).tasks[m]? = some u) :
        u.between = false := by
      by_contra hu
      rcases Tasks.set_cases hm with ⟨-, rfl⟩ | ⟨hother, hm⟩
      · exact hu rfl
      · exact hother (h.one hm ht (by simpa using hu) rfl)
    refine ⟨h.notes, h.below, ?_, fun r hr => ?_, fun hm _ hu _ => ?_, fun hm hu => ?_,
      fun hnone hfalse => ?_⟩
    · rw [hperm.nodup_iff, List.nodup_cons]
      exact ⟨fun hmem => absurd (hfresh _ hmem) (Int.lt_irrefl _), h.nodup⟩
    · rcases List.mem_cons.mp (hperm.mem_iff.mp hr) with rfl | hr
      · exact Int.le_refl _
      · exact h.known r hr
    · rw [hnobody hm] at hu
      cases hu
    · rw [hnobody hm] at hu
      cases hu
    · have := (h.nobody hnone hfalse).2 ht
      cases this
  · have hnew : Task.drawn ⟨call, .read (s.disk.contacts chat)⟩ = none := by
      cases call with
      | noteAsked => exact absurd rfl hcall
      | noteSeen | setState | consumeAnnouncement => rfl
    exact h.quiet_set ht hold hnew fun hbetween => by simp [Task.between] at hbetween

/-- A task goes on. -/
theorem resumes (h : Kept chat s) (ht : s.tasks[n]? = some t) {s' : State}
    (hs' : s.resume n t = some s') : Kept chat s' := by
  obtain ⟨call, stage⟩ := t
  cases stage with
  | writing stamp => cases call <;> cases hs'
  | reading => cases call <;> cases hs'
  | ended => cases call <;> cases hs'
  | written changed =>
    cases call with
    | noteSeen user name =>
      obtain rfl := Option.some.inj hs'
      exact h.quiet_set ht rfl rfl id
    | noteAsked =>
      obtain rfl := Option.some.inj hs'
      exact h.quiet_set ht rfl rfl fun _ => rfl
    | setState state =>
      obtain rfl := Option.some.inj hs'
      exact h.quiet_set ht rfl rfl id
    | consumeAnnouncement revision =>
      obtain rfl := Option.some.inj hs'
      exact h.quiet_set ht rfl rfl id
  | read contact =>
    cases call with
    | noteSeen user name =>
      obtain rfl := Option.some.inj hs'
      exact h.quiet_set ht rfl rfl id
    | setState state =>
      obtain rfl := Option.some.inj hs'
      exact h.quiet_set ht rfl rfl id
    | consumeAnnouncement revision =>
      obtain rfl := Option.some.inj hs'
      exact h.quiet_set ht rfl rfl id
    | noteAsked =>
      obtain rfl := Option.some.inj hs'
      -- the revision goes from the task's hands to who called
      have hperm : State.known { s.setStage n ⟨.noteAsked, .read contact⟩ .ended with
          revisions := s.revisions ++ [(n, revisionOf contact)] } |>.Perm s.known := by
        have hset := Tasks.filterMap_set (f := Task.drawn) (a := ⟨.noteAsked, .ended⟩) ht
        have := hset.append_left (s.revisions.map (·.2))
        simpa [State.known, State.setStage, Task.drawn] using this
      refine h.quiet rfl rfl rfl (hperm.nodup_iff.mpr h.nodup)
        (fun r hr => hperm.mem_iff.mp hr) fun hm hu => ?_
      rcases Tasks.set_cases hm with ⟨-, rfl⟩ | ⟨-, hm⟩
      · cases hu
      · exact ⟨_, hm, hu⟩

theorem step {e : Event} {s' : State} (h : Kept chat s) (hguard : s.guarded chat e = true)
    (hs' : s.step chat e = some s') : Kept chat s' := by
  cases e with
  | call c stamp =>
    obtain rfl := Option.some.inj hs'
    have hknown := known_append (s := s) c stamp
    refine h.quiet rfl rfl rfl (hknown ▸ h.nodup) (fun r hr => hknown ▸ hr) fun hm hu => ?_
    rcases Tasks.append_cases hm with ⟨-, rfl⟩ | hm
    · simp [Task.between] at hu
    · exact ⟨_, hm, hu⟩
  | execute n =>
    obtain ⟨t, ht, hs'⟩ := Option.bind_eq_some_iff.mp hs'
    cases hstage : t.stage with
    | writing stamp => exact h.write ht hstage hguard hs'
    | reading =>
      simp only [State.execute, hstage, Option.some.injEq] at hs'
      exact hs' ▸ h.reads ht hstage
    | written changed => simp [State.execute, hstage] at hs'
    | read contact => simp [State.execute, hstage] at hs'
    | ended => simp [State.execute, hstage] at hs'
  | resume n =>
    obtain ⟨t, ht, hs'⟩ := Option.bind_eq_some_iff.mp hs'
    exact h.resumes ht hs'
  | elsewhere disk =>
    simp only [State.step, Option.ite_none_right_eq_some, Option.some.injEq] at hs'
    obtain ⟨hrow, rfl⟩ := hs'
    exact h.quiet rfl hrow rfl h.nodup (fun r hr => hr) fun hm hu => ⟨_, hm, hu⟩
  | restart =>
    obtain rfl := Option.some.inj hs'
    have hover : (s.tasks.map fun t => { t with stage := .ended }).filterMap Task.drawn = [] := by
      rw [List.filterMap_map, List.filterMap_eq_nil_iff]
      intro t _
      cases h : t.call <;> simp [Task.drawn, h]
    have hknown : State.known { s with tasks := s.tasks.map fun t => { t with stage := .ended } } =
        s.revisions.map (·.2) := by
      simp [State.known, hover]
    refine h.quiet rfl rfl rfl ?_ (fun r hr => ?_) fun hm hu => ?_
    · rw [hknown]
      exact (List.nodup_append.mp h.nodup).1
    · rw [hknown] at hr
      exact List.mem_append_left _ hr
    · rw [List.getElem?_map, Option.map_eq_some_iff] at hm
      obtain ⟨t, -, rfl⟩ := hm
      simp [Task.between] at hu

theorem start (disk : Disk) : Kept chat { disk } where
  notes := .nil
  below e he := by cases he
  nodup := .nil
  known r hr := by cases hr
  one hm := by cases hm
  fresh hm := by cases hm
  nobody _ _ := ⟨rfl, fun hm => by cases hm⟩

end Kept

/-! ## which question -/

def Note.question : Note → Option (Nat × Option Int)
  | .asked call revision => some (call, revision)
  | .consumed _ | .mark _ => none

namespace State

/-- The questions that have been put, in their order. -/
def questions (s : State) : List (Nat × Option Int) := s.notes.filterMap Note.question

/-- The call has read this revision back, and may have returned it. -/
def Drew (s : State) (n : Nat) (r : Int) : Prop :=
  (n, r) ∈ s.revisions ∨ ∃ t, s.tasks[n]? = some t ∧ t.drawn = some r

/-- This was stored once the call had put its question. -/
def Stored (s : State) (n : Nat) (r : Int) : Prop :=
  ∃ q, Note.asked n q ∈ s.notes ∧ ([Note.asked n q, .mark r].Sublist s.notes ∨ r = 0)

theorem mem_questions {s : State} {n : Nat} {q : Option Int} :
    (n, q) ∈ s.questions ↔ Note.asked n q ∈ s.notes := by
  rw [questions, List.mem_filterMap]
  constructor
  · rintro ⟨e, he, hq⟩
    cases e with
    | asked call revision =>
      obtain ⟨rfl, rfl⟩ := Prod.mk.inj (Option.some.inj hq)
      exact he
    | consumed revision => cases hq
    | mark askedAt => cases hq
  · exact fun h => ⟨_, h, rfl⟩

theorem questions_sublist {s : State} {m n : Nat} {p q : Option Int}
    (h : [Note.asked m p, .asked n q].Sublist s.notes) : [(m, p), (n, q)].Sublist s.questions :=
  h.filterMap Note.question

theorem Drew.known {s : State} {n : Nat} {r : Int} (h : s.Drew n r) : r ∈ s.known := by
  obtain h | ⟨t, ht, hr⟩ := h
  · exact List.mem_append_left _ (List.mem_map_of_mem (f := (·.2)) h)
  · exact List.mem_append_right _ (List.mem_filterMap.mpr ⟨t, List.mem_of_getElem? ht, hr⟩)

theorem Stored.mono {s s' : State} {n : Nat} {r : Int} {l : List Note} (h : s.Stored n r)
    (hnotes : s'.notes = s.notes ++ l) : s'.Stored n r := by
  obtain ⟨q, hq, hr⟩ := h
  refine ⟨q, hnotes ▸ List.mem_append_left _ hq, hr.imp_left fun hsub => ?_⟩
  exact hnotes ▸ hsub.trans (List.sublist_append_left _ _)

end State

/-- Each question is of a call, and what the call reads back it finds stored, with no other
question in between. -/
structure Listed (chat : Int) (s : State) : Prop where
  put : ∀ {n : Nat} {q : Option Int}, (n, q) ∈ s.questions →
    ∃ t, s.tasks[n]? = some t ∧ ∀ stamp, t.stage ≠ .writing stamp
  nodup : (s.questions.map (·.1)).Nodup
  last : ∀ {n : Nat} {t : Task}, s.tasks[n]? = some t → t.between = true →
    (∃ q, s.questions.getLast? = some (n, q)) ∧ s.Stored n (s.askedAt chat)
  stored : ∀ {n : Nat} {r : Int}, s.Drew n r → s.Stored n r
  own : ∀ {n : Nat} {r q : Int}, s.Drew n r → (n, some q) ∈ s.questions → q ≤ r
  superseded : ∀ {m n : Nat} {r : Int} {p q : Option Int}, s.Drew m r →
    [(m, p), (n, q)].Sublist s.questions → ∃ q', q = some q' ∧ r < q'

/-- Two in a row of which the second may be the one just added. -/
theorem pair_sublist_concat {α : Type} {a b c : α} {l : List α} (h : [a, b].Sublist (l ++ [c])) :
    [a, b].Sublist l ∨ a ∈ l ∧ b = c := by
  obtain ⟨l₁, l₂, heq, h₁, h₂⟩ := List.sublist_append_iff.mp h
  cases l₂ with
  | nil =>
    rw [List.append_nil] at heq
    exact .inl (heq ▸ h₁)
  | cons d l₂ =>
    obtain ⟨rfl, rfl⟩ : d = c ∧ l₂ = [] := by
      have hlen := h₂.length_le
      cases l₂ with
      | nil => exact ⟨List.mem_singleton.mp (h₂.subset List.mem_cons_self), rfl⟩
      | cons e l₂ => simp at hlen
    have heq : [a] ++ [b] = l₁ ++ [d] := heq
    obtain ⟨rfl, hb⟩ := List.append_inj' heq rfl
    exact .inr ⟨List.singleton_sublist.mp h₁, (List.cons.inj hb).1⟩

namespace Listed

variable {chat : Int} {s s' : State} {n : Nat} {t : Task}

/-- A step that leaves the row and the notes alone, reads nothing back, and lets nobody in
between its two statements. -/
theorem quiet (h : Listed chat s) (hnotes : s'.notes = s.notes)
    (hrow : s'.disk.contacts chat = s.disk.contacts chat)
    (hput : ∀ {m : Nat} {u : Task}, s.tasks[m]? = some u → (∀ stamp, u.stage ≠ .writing stamp) →
      ∃ u' : Task, s'.tasks[m]? = some u' ∧ ∀ stamp, u'.stage ≠ .writing stamp)
    (hdrew : ∀ {m : Nat} {r : Int}, s'.Drew m r → s.Drew m r)
    (hbetween : ∀ {m : Nat} {u : Task}, s'.tasks[m]? = some u → u.between = true →
      ∃ u' : Task, s.tasks[m]? = some u' ∧ u'.between = true) : Listed chat s' := by
  have hquestions : s'.questions = s.questions := by rw [State.questions, hnotes, State.questions]
  have hstored {m : Nat} {r : Int} (hr : s.Stored m r) : s'.Stored m r :=
    hr.mono (hnotes.trans (List.append_nil _).symm)
  have hasked : s'.askedAt chat = s.askedAt chat := by rw [State.askedAt, hrow, State.askedAt]
  refine ⟨fun hq => ?_, hquestions ▸ h.nodup, fun hm hu => ?_, fun hr => hstored (h.stored (hdrew hr)),
    fun hr hq => h.own (hdrew hr) (hquestions ▸ hq),
    fun hr hsub => h.superseded (hdrew hr) (hquestions ▸ hsub)⟩
  · obtain ⟨u, hu, hstage⟩ := h.put (hquestions ▸ hq)
    exact hput hu hstage
  · obtain ⟨u', hu', hbetween'⟩ := hbetween hm hu
    obtain ⟨hlast, hr⟩ := h.last hu' hbetween'
    exact ⟨hquestions ▸ hlast, hasked ▸ hstored hr⟩

theorem drew_set {stage : Stage} {m : Nat} {r : Int}
    (htasks : s'.tasks = (s.setStage n t stage).tasks) (hrevisions : s'.revisions = s.revisions)
    (hr : s'.Drew m r) : s.Drew m r ∨ m = n ∧ Task.drawn { t with stage } = some r := by
  obtain hr | ⟨u, hu, hr⟩ := hr
  · exact .inl (.inl (hrevisions ▸ hr))
  · rw [htasks] at hu
    rcases Tasks.set_cases hu with ⟨rfl, rfl⟩ | ⟨-, hu⟩
    · exact .inr ⟨rfl, hr⟩
    · exact .inl (.inr ⟨u, hu, hr⟩)

/-- A call goes on. -/
theorem put_set {stage : Stage} {m : Nat} {u : Task} (ht : s.tasks[n]? = some t)
    (hstage : ∀ stamp, stage ≠ .writing stamp) (hu : s.tasks[m]? = some u)
    (hold : ∀ stamp, u.stage ≠ .writing stamp) :
    ∃ u', (s.setStage n t stage).tasks[m]? = some u' ∧ ∀ stamp, u'.stage ≠ .writing stamp := by
  have hlt := (List.getElem?_eq_some_iff.mp ht).1
  by_cases hm : m = n
  · subst hm
    exact ⟨_, List.getElem?_set_self hlt, hstage⟩
  · refine ⟨u, ?_, hold⟩
    rw [State.setStage, List.getElem?_set_ne (Ne.symm hm)]
    exact hu

theorem quiet_set {stage : Stage} (h : Listed chat s) (ht : s.tasks[n]? = some t)
    (hstage : ∀ stamp, stage ≠ .writing stamp) (hnew : Task.drawn { t with stage } = none)
    (hbetween : Task.between { t with stage } = true → t.between = true) :
    Listed chat (s.setStage n t stage) := by
  refine h.quiet rfl rfl (put_set ht hstage) (fun hr => ?_) fun hm hu => ?_
  · obtain hr | ⟨-, hr⟩ := drew_set rfl rfl hr
    · exact hr
    · rw [hnew] at hr
      cases hr
  · rcases Tasks.set_cases hm with ⟨rfl, rfl⟩ | ⟨-, hm⟩
    · exact ⟨t, ht, hbetween hu⟩
    · exact ⟨_, hm, hu⟩

/-- A question that is not put yet has read nothing back. -/
theorem not_drew {stamp r : Int} (h : Listed chat s) (ht : s.tasks[n]? = some t)
    (hstage : t.stage = .writing stamp) : ¬s.Drew n r := by
  intro hr
  obtain ⟨q, hq, -⟩ := h.stored hr
  obtain ⟨u, hu, hstage'⟩ := h.put (State.mem_questions.mpr hq)
  rw [ht] at hu
  obtain rfl := Option.some.inj hu
  exact hstage' stamp hstage

/-- A question is put. -/
theorem asks {stamp : Int} (hk : Kept chat s) (h : Listed chat s)
    (ht : s.tasks[n]? = some ⟨.noteAsked, .writing stamp⟩)
    (hguard : s.guarded chat (.execute n) = true)
    (hs' : s.execute chat n ⟨.noteAsked, .writing stamp⟩ = some s') : Listed chat s' := by
  obtain ⟨htasks, hrevisions, hasked, hwritten, -⟩ := execute_written hs'
  obtain ⟨hothers, hblank⟩ := Kept.guarded_asked ht hguard
  have hlt := (List.getElem?_eq_some_iff.mp ht).1
  have hdrew {m : Nat} {r : Int} (hr : s'.Drew m r) : s.Drew m r := by
    obtain hr | ⟨-, hr⟩ := drew_set htasks hrevisions hr
    · exact hr
    · cases hr
  -- what it leaves to be seen, where somebody is stored and where nobody is
  obtain ⟨q, l, hnotes, hl, hq, hown⟩ : ∃ q l, s'.notes = s.notes ++ .asked n q :: l ∧
      l.filterMap Note.question = [] ∧
      (l = [.mark (s'.askedAt chat)] ∨ s'.askedAt chat = 0) ∧
      ∀ r ∈ s.known, ∃ q', q = some q' ∧ r < q' := by
    rcases noteAsked_write chat stamp s.disk with ⟨hone, hraised⟩ | ⟨hzero, hnone, hnone'⟩
    · refine ⟨some (s'.askedAt chat), [.mark (s'.askedAt chat)], ?_, rfl, .inl rfl, fun r hr => ?_⟩
      · rw [hasked, hwritten, State.noted, if_pos hone]
      · exact ⟨_, rfl, hasked ▸ Int.lt_of_le_of_lt (hk.known r hr) hraised⟩
    · refine ⟨none, [], ?_, rfl, .inr (hasked.trans (by rw [hnone', revisionOf_none])), fun r hr => ?_⟩
      · rw [hwritten, State.noted, hzero, if_neg (by decide)]
      · rw [(hk.nobody hnone (hblank hnone)).1] at hr
        cases hr
  have hquestions : s'.questions = s.questions ++ [(n, q)] := by
    rw [State.questions, hnotes, List.filterMap_append, List.filterMap_cons]
    simp only [Note.question, hl, State.questions]
  have hfresh : ∀ p, (n, p) ∉ s.questions := fun p hp => by
    obtain ⟨u, hu, hstage⟩ := h.put hp
    rw [ht] at hu
    obtain rfl := Option.some.inj hu
    exact hstage stamp rfl
  refine ⟨fun hp => ?_, ?_, fun hm hu => ?_, fun hr => (h.stored (hdrew hr)).mono hnotes,
    fun hr hp => ?_, fun hr hsub => ?_⟩
  · rw [htasks]
    rcases List.mem_append.mp (hquestions ▸ hp) with hp | hp
    · obtain ⟨u, hu, hstage⟩ := h.put hp
      exact put_set ht (fun _ => nofun) hu hstage
    · obtain ⟨hn, -⟩ := Prod.mk.inj (List.mem_singleton.mp hp)
      subst hn
      exact ⟨_, List.getElem?_set_self hlt, fun _ => nofun⟩
  · rw [hquestions, List.map_append, List.map_singleton, List.nodup_append]
    refine ⟨h.nodup, List.pairwise_singleton _ _, fun m hm k hk => ?_⟩
    rw [List.mem_singleton.mp hk]
    rintro rfl
    obtain ⟨⟨k, p⟩, hp, rfl⟩ := List.mem_map.mp hm
    exact hfresh p hp
  · rw [htasks] at hm
    rcases Tasks.set_cases hm with ⟨hmn, -⟩ | ⟨-, hm⟩
    swap
    · rw [hothers _ (List.mem_of_getElem? hm)] at hu
      cases hu
    subst hmn
    refine ⟨⟨q, by rw [hquestions, List.getLast?_concat]⟩, q, ?_, hq.imp_left fun hl => ?_⟩
    · rw [hnotes]
      exact List.mem_append_right _ List.mem_cons_self
    · rw [hnotes, hl]
      exact List.sublist_append_right _ _
  · rcases List.mem_append.mp (hquestions ▸ hp) with hp | hp
    · exact h.own (hdrew hr) hp
    · obtain ⟨hn, -⟩ := Prod.mk.inj (List.mem_singleton.mp hp)
      subst hn
      exact absurd (hdrew hr) (h.not_drew ht rfl)
  · rw [hquestions] at hsub
    obtain hsub | ⟨-, heq⟩ := pair_sublist_concat hsub
    · exact h.superseded (hdrew hr) hsub
    · obtain ⟨-, rfl⟩ := Prod.mk.inj heq
      exact hown _ (hdrew hr).known

/-- Another write is executed. -/
theorem write {stamp : Int} (h : Listed chat s) (ht : s.tasks[n]? = some t)
    (hstage : t.stage = .writing stamp) (hcall : t.call ≠ .noteAsked)
    (hs' : s.execute chat n t = some s') : Listed chat s' := by
  obtain ⟨call, stage⟩ := t
  obtain rfl : stage = .writing stamp := hstage
  obtain ⟨htasks, hrevisions, hasked, hnotes, -⟩ := execute_written hs'
  have hquestions : s'.questions = s.questions := by
    rw [State.questions, hnotes, List.filterMap_append, State.questions, List.append_right_eq_self]
    cases call with
    | noteAsked => exact absurd rfl hcall
    | noteSeen | setState => rfl
    | consumeAnnouncement revision =>
      rw [State.noted]
      split <;> rfl
  have hdrawn : Task.drawn ⟨call, .written (call.write chat stamp s.disk).2⟩ = none := by
    cases call <;> rfl
  have hdrew {m : Nat} {r : Int} (hr : s'.Drew m r) : s.Drew m r := by
    obtain hr | ⟨-, hr⟩ := drew_set htasks hrevisions hr
    · exact hr
    · rw [hdrawn] at hr
      cases hr
  refine ⟨fun hp => ?_, hquestions ▸ h.nodup, fun {m u} hm hu => ?_,
    fun hr => (h.stored (hdrew hr)).mono hnotes,
    fun hr hp => h.own (hdrew hr) (hquestions ▸ hp),
    fun hr hsub => h.superseded (hdrew hr) (hquestions ▸ hsub)⟩
  · obtain ⟨u, hu, hstage⟩ := h.put (hquestions ▸ hp)
    rw [htasks]
    exact put_set ht (fun _ => nofun) hu hstage
  · have hold : s.tasks[m]? = some u := by
      rw [htasks] at hm
      rcases Tasks.set_cases hm with ⟨-, rfl⟩ | ⟨-, hm⟩
      · simp only [Task.between, Bool.and_eq_true, beq_iff_eq] at hu
        exact absurd hu.1 hcall
      · exact hm
    obtain ⟨hlast, hstored⟩ := h.last hold hu
    refine ⟨hquestions ▸ hlast, ?_⟩
    rw [hasked]
    rcases noted_mark n call chat stamp s.disk with hsame | hmark
    · rw [hsame]
      exact hstored.mono hnotes
    · obtain ⟨q, hq, -⟩ := hstored
      refine ⟨q, hnotes ▸ List.mem_append_left _ hq, .inl ?_⟩
      rw [hnotes]
      exact (List.singleton_sublist.mpr hq).append (List.singleton_sublist.mpr hmark)

/-- A question reads its revision back. -/
theorem reads (hk : Kept chat s) (h : Listed chat s) (ht : s.tasks[n]? = some ⟨.noteAsked, .reading⟩) :
    Listed chat (s.setStage n ⟨.noteAsked, .reading⟩ (.read (s.disk.contacts chat))) := by
  obtain ⟨⟨q, hlast⟩, hstored⟩ := h.last ht rfl
  obtain ⟨init, hinit⟩ := List.getLast?_eq_some_iff.mp hlast
  have hother {m : Nat} {u : Task}
      (hm : (s.setStage n ⟨.noteAsked, .reading⟩ (.read (s.disk.contacts chat))).tasks[m]? = some u) :
      u.between = false := by
    by_contra hu
    rcases Tasks.set_cases hm with ⟨-, rfl⟩ | ⟨hother, hm⟩
    · exact hu rfl
    · exact hother (hk.one hm ht (by simpa using hu) rfl)
  -- the call itself has read what is stored
  have hdrew {m : Nat} {r : Int}
      (hr : (s.setStage n ⟨.noteAsked, .reading⟩ (.read (s.disk.contacts chat))).Drew m r) :
      s.Drew m r ∨ m = n ∧ r = s.askedAt chat :=
    (drew_set rfl rfl hr).imp_right fun ⟨hm, hr⟩ => ⟨hm, (Option.some.inj hr).symm⟩
  refine ⟨fun hp => ?_, h.nodup, fun hm hu => ?_, fun hr => ?_, fun hr hp => ?_, fun hr hsub => ?_⟩
  · obtain ⟨u, hu, hstage⟩ := h.put hp
    exact put_set ht (fun _ => nofun) hu hstage
  · rw [hother hm] at hu
    cases hu
  · obtain hr | ⟨hm, rfl⟩ := hdrew hr
    · exact h.stored hr
    · exact hm ▸ hstored
  · obtain hr | ⟨-, rfl⟩ := hdrew hr
    · exact h.own hr hp
    · exact hk.below _ (State.mem_questions.mp hp)
  · obtain hr | ⟨hm, rfl⟩ := hdrew hr
    · exact h.superseded hr hsub
    · -- nothing was asked after it
      have hmem {p : Option Int} : (n, p) ∉ init := fun hp => by
        have hnodup := h.nodup
        rw [hinit, List.map_append, List.nodup_append] at hnodup
        exact hnodup.2.2 n (List.mem_map_of_mem (f := (·.1)) hp) n List.mem_cons_self rfl
      subst hm
      obtain hsub' | ⟨hp, -⟩ := pair_sublist_concat (hinit ▸ hsub)
      · exact absurd (hsub'.subset List.mem_cons_self) hmem
      · exact absurd hp hmem

/-- A call goes on. -/
theorem resumes (h : Listed chat s) (ht : s.tasks[n]? = some t)
    (hs' : s.resume n t = some s') : Listed chat s' := by
  obtain ⟨call, stage⟩ := t
  cases stage with
  | writing stamp => cases call <;> cases hs'
  | reading => cases call <;> cases hs'
  | ended => cases call <;> cases hs'
  | written changed =>
    cases call with
    | noteSeen | noteAsked | setState | consumeAnnouncement =>
      obtain rfl := Option.some.inj hs'
      exact h.quiet_set ht (fun _ => nofun) rfl id
  | read contact =>
    cases call with
    | noteSeen | setState | consumeAnnouncement =>
      obtain rfl := Option.some.inj hs'
      exact h.quiet_set ht (fun _ => nofun) rfl id
    | noteAsked =>
      obtain rfl := Option.some.inj hs'
      refine h.quiet rfl rfl (put_set ht fun _ => nofun) (fun hr => ?_) fun hm hu => ?_
      · obtain hr | ⟨u, hu, hr⟩ := hr
        · rcases List.mem_append.mp hr with hr | hr
          · exact .inl hr
          · obtain ⟨rfl, rfl⟩ := Prod.mk.inj (List.mem_singleton.mp hr)
            exact .inr ⟨_, ht, rfl⟩
        · rcases Tasks.set_cases hu with ⟨-, rfl⟩ | ⟨-, hu⟩
          · cases hr
          · exact .inr ⟨u, hu, hr⟩
      · rcases Tasks.set_cases hm with ⟨-, rfl⟩ | ⟨-, hm⟩
        · cases hu
        · exact ⟨_, hm, hu⟩

theorem step {e : Event} (h : Listed chat s) (hk : Kept chat s)
    (hguard : s.guarded chat e = true) (hs' : s.step chat e = some s') : Listed chat s' := by
  cases e with
  | call c stamp =>
    obtain rfl := Option.some.inj hs'
    refine h.quiet rfl rfl (fun hu hstage => ?_) (fun hr => ?_) fun hm hu => ?_
    · refine ⟨_, ?_, hstage⟩
      rw [List.getElem?_append_left (List.getElem?_eq_some_iff.mp hu).1]
      exact hu
    · obtain hr | ⟨u, hu, hr⟩ := hr
      · exact .inl hr
      · rcases Tasks.append_cases hu with ⟨-, rfl⟩ | hu
        · cases c <;> cases hr
        · exact .inr ⟨u, hu, hr⟩
    · rcases Tasks.append_cases hm with ⟨-, rfl⟩ | hm
      · simp [Task.between] at hu
      · exact ⟨_, hm, hu⟩
  | execute n =>
    obtain ⟨⟨c, stage⟩, ht, hs'⟩ := Option.bind_eq_some_iff.mp hs'
    cases stage with
    | writing stamp =>
      by_cases hcall : c = .noteAsked
      · subst hcall
        exact asks hk h ht hguard hs'
      · exact h.write ht rfl hcall hs'
    | reading =>
      simp only [State.execute, Option.some.injEq] at hs'
      subst hs'
      by_cases hcall : c = .noteAsked
      · subst hcall
        exact reads hk h ht
      · refine h.quiet_set ht (fun _ => nofun) ?_ fun hu => by simp [Task.between] at hu
        cases c with
        | noteAsked => exact absurd rfl hcall
        | noteSeen | setState | consumeAnnouncement => rfl
    | written changed => cases hs'
    | read contact => cases hs'
    | ended => cases hs'
  | resume n =>
    obtain ⟨t, ht, hs'⟩ := Option.bind_eq_some_iff.mp hs'
    exact h.resumes ht hs'
  | elsewhere disk =>
    simp only [State.step, Option.ite_none_right_eq_some, Option.some.injEq] at hs'
    obtain ⟨hrow, rfl⟩ := hs'
    exact h.quiet rfl hrow (fun hu hstage => ⟨_, hu, hstage⟩) id fun hm hu => ⟨_, hm, hu⟩
  | restart =>
    obtain rfl := Option.some.inj hs'
    have hover {m : Nat} {u : Task}
        (hm : (s.tasks.map fun t => { t with stage := Stage.ended })[m]? = some u) :
        u.stage = .ended := by
      rw [List.getElem?_map, Option.map_eq_some_iff] at hm
      obtain ⟨t, -, rfl⟩ := hm
      rfl
    refine h.quiet rfl rfl (fun hu _ => ?_) (fun hr => ?_) fun hm hu => ?_
    · refine ⟨_, by rw [List.getElem?_map, hu]; rfl, fun stamp hstage => ?_⟩
      cases hstage
    · obtain hr | ⟨⟨c, stage⟩, hu, hr⟩ := hr
      · exact .inl hr
      · obtain rfl : stage = .ended := hover hu
        cases c <;> cases hr
    · simp [Task.between, hover hm] at hu

theorem start (disk : Disk) : Listed chat { disk } where
  put hq := by cases hq
  nodup := .nil
  last hm := by cases hm
  stored hr := by
    obtain hr | ⟨_, hm, -⟩ := hr
    · cases hr
    · cases hm
  own _ hq := by cases hq
  superseded _ hsub := by cases hsub

end Listed

theorem Kept.oneAnswer {chat : Int} {s : State} (hk : Kept chat s) (h : Listed chat s) :
    OneAnswer s := by
  have follows {e e' : Note} (hsub : [e, e'].Sublist s.notes) : e.Follows e' :=
    List.pairwise_iff_forall_sublist.mp hk.notes hsub
  have hsuperseded {m n : Nat} {r : Int} {p q : Option Int} (hr : (m, r) ∈ s.revisions)
      (hsub : [Note.asked m p, .asked n q].Sublist s.notes) : ∃ q', q = some q' ∧ r < q' :=
    h.superseded (.inl hr) (State.questions_sublist hsub)
  refine ⟨(List.nodup_append.mp hk.nodup).1, fun hr => h.stored (.inl hr), ?_, ?_,
    fun hsub => follows hsub, fun hsub => ?_, fun hsub => follows hsub, fun hsub => follows hsub,
    fun hsub => ?_⟩
  · intro m n r r' p q hr hr' hsub
    obtain ⟨q', rfl, hlt⟩ := hsuperseded hr hsub
    have hmem := State.mem_questions.mpr (hsub.subset (List.mem_cons_of_mem _ List.mem_cons_self))
    exact Int.lt_of_lt_of_le hlt (h.own (.inl hr') hmem)
  · intro m n r p q hr hsub hconsumed
    obtain ⟨q', rfl, hlt⟩ := hsuperseded hr hsub
    have := follows hconsumed
    simp only [Note.Follows, Note.floor, Option.getD_some] at this
    omega
  · have := follows hsub
    simp only [Note.Follows, Note.floor] at this
    omega
  · have := follows hsub
    simp only [Note.Follows, Note.floor] at this
    omega

/-! ## a whole run -/

/-- Over tables left by whatever went before, in any order of calls, statements,
answers and restarts: one announcement, one answer, where questions are not put
at once and `set_state` does not set `asked_at` back. -/
theorem one_answer (disk : Disk) (chat : Int) {s : State}
    (h : Run.Reaches (system disk chat) (fun s e => s.guarded chat e = true) s) : OneAnswer s := by
  have hkept (s : State)
      (h : Run.Reaches (system disk chat) (fun s e => s.guarded chat e = true) s) : Kept chat s :=
    h.invariant (Kept.start disk) fun _ _ _ hs hok hst => hs.step hok hst
  have hlisted : Listed chat s :=
    h.invariant_of hkept (Listed.start disk) fun _ _ _ hk hs hok hst => hs.step hk hok hst
  exact (hkept s h).oneAnswer hlisted

/-- Nobody is known yet. -/
def nobody : Disk := ⟨fun _ => none, [], 0⟩

/-- A question, its answer tapped twice, and a newer question with the clock set back. -/
theorem one_answer_twice : ∃ s, Run.Reaches (system nobody 5) (fun s e => s.guarded 5 e = true) s ∧
    OneAnswer s ∧ s.revisions = [(1, 100), (4, 102)] := by
  obtain ⟨s, hs, hfinal⟩ := Run.Reaches.exists_of_play (system nobody 5) (State.guarded 5)
    [.call (.noteSeen none none) 90, .execute 0, .call .noteAsked 100, .execute 1, .resume 1,
      .execute 1, .resume 1, .call (.consumeAnnouncement 100) 90, .call (.consumeAnnouncement 100) 90,
      .execute 2, .execute 3, .restart, .call .noteAsked 80, .execute 4, .resume 4, .execute 4,
      .resume 4]
    (fun s => s.revisions = [(1, 100), (4, 102)]) (by decide +kernel)
  exact ⟨s, hs, one_answer nobody 5 hs, of_decide_eq_true hfinal⟩

/-- Two questions put at once read the same revision back. -/
theorem not_one_answer : ∃ s, Run.Reaches (system nobody 5) Run.anyStep s ∧ ¬ OneAnswer s := by
  obtain ⟨s, hs, hfinal⟩ := Run.Reaches.exists_of_play (system nobody 5) (fun _ _ => true)
    [.call (.noteSeen none none) 90, .execute 0, .call .noteAsked 100, .call .noteAsked 100,
      .execute 1, .execute 2, .resume 1, .resume 2, .execute 1, .execute 2, .resume 1, .resume 2]
    (fun s => s.revisions = [(1, 101), (2, 101)]) (by decide +kernel)
  refine ⟨s, hs.mono fun _ _ _ => trivial, fun h => ?_⟩
  have := h.revisions
  rw [of_decide_eq_true hfinal] at this
  exact absurd this (by decide)

end Telemax.Provisioning.Announcements
