import Telemax.Presence.AutoRead

/-!
# Telemax.Presence.ReadMarks

What the stored marks are worth.  In every run, with any number of calls between each other's
awaits, the owner's mark is an id that MAX has accepted and the contact's is one that was
reported, and a call leaves MAX alone only because MAX has accepted that message or a later one.
As long as marks do not overlap, nothing up to an id MAX was heard to accept is asked for again,
whatever answers are lost.
-/

namespace Telemax.Presence.AutoRead

open ReadState

/-! ## what the writes leave -/

section

variable (row : ReadState) (current : ReadMarks) (mark : Int) (ticked : Option Int)

theorem ownReadMark_writeOwnRead : (row.writeOwnRead current mark).get.ownReadMark = mark := by
  cases row <;> rfl

theorem contactReadMark_writeContactRead :
    (row.writeContactRead current mark ticked).get.contactReadMark = mark := by
  cases row <;> rfl

theorem writeOwnRead_ne_none : row.writeOwnRead current mark ≠ none :=
  Option.some_ne_none _

theorem writeContactRead_ne_none : row.writeContactRead current mark ticked ≠ none :=
  Option.some_ne_none _

/-- The other mark is as it was, or, in a new row, as it was read. -/
theorem contactReadMark_writeOwnRead :
    (row.writeOwnRead current mark).get.contactReadMark = row.get.contactReadMark ∨
      (row.writeOwnRead current mark).get.contactReadMark = current.contactReadMark := by
  cases row with
  | none => exact .inr rfl
  | some r => exact .inl rfl

theorem ownReadMark_writeContactRead :
    (row.writeContactRead current mark ticked).get.ownReadMark = row.get.ownReadMark ∨
      row = none ∧
        (row.writeContactRead current mark ticked).get.ownReadMark = current.ownReadMark := by
  cases row with
  | none => exact .inr ⟨rfl, rfl⟩
  | some r => exact .inl rfl

end

/-! ## every mark is earned -/

/-- Marks that MAX has accepted and the contact's reading was reported with. -/
structure Earned (accepted reported : List Int) (marks : ReadMarks) : Prop where
  own : marks.ownReadMark = 0 ∨ marks.ownReadMark ∈ accepted
  contact : marks.contactReadMark = 0 ∨ marks.contactReadMark ∈ reported

section

variable {accepted reported accepted' reported' : List Int}

theorem Earned.mono {marks : ReadMarks} (h : Earned accepted reported marks)
    (ha : accepted ⊆ accepted') (hr : reported ⊆ reported') : Earned accepted' reported' marks :=
  ⟨h.own.imp_right (ha ·), h.contact.imp_right (hr ·)⟩

/-- What a call has in hand is earned. -/
def Backed (accepted reported : List Int) : Task → Prop
  | .mark _ message .noting => message ∈ accepted
  | .mark _ message (.writing current) => message ∈ accepted ∧ Earned accepted reported current
  | .mark _ _ _ => True
  | .tick _ (.ended _) => True
  | .tick mark (.writing _ current) => mark ∈ reported ∧ Earned accepted reported current
  | .tick mark _ => mark ∈ reported

theorem Backed.mono {u : Task} (h : Backed accepted reported u) (ha : accepted ⊆ accepted')
    (hr : reported ⊆ reported') : Backed accepted' reported' u := by
  cases u with
  | mark chat message stage =>
    cases stage with
    | noting => exact ha h
    | writing current => exact ⟨ha h.1, h.2.mono ha hr⟩
    | _ => trivial
  | tick mark stage =>
    cases stage with
    | writing ticked current => exact ⟨hr h.1, h.2.mono ha hr⟩
    | ended result => trivial
    | _ => exact hr h

end

structure AllEarned (s : State) : Prop where
  row : Earned s.accepted s.reported s.row.get
  tasks : ∀ (n : Nat) (u : Task), s.tasks[n]? = some u → Backed s.accepted s.reported u

namespace AllEarned

variable {cfg : Config} {s t : State} {e : Event}

theorem start : AllEarned (system cfg).start where
  row := ⟨.inl rfl, .inl rfl⟩
  tasks n u h := by simp [system] at h

/-- A task is set, while the marks stay as they are. -/
theorem set (hs : AllEarned s) {n : Nat} {u : Task} (hu : Backed s.accepted s.reported u) :
    AllEarned (s.set n u) where
  row := hs.row
  tasks m v hv := by
    obtain ⟨-, rfl⟩ | ⟨-, hold⟩ := Tasks.set_cases hv
    · exact hu
    · exact hs.tasks m v hold

theorem add (hs : AllEarned s) {u : Task} (hu : Backed s.accepted s.reported u) :
    AllEarned (s.start u) where
  row := hs.row
  tasks m v hv := by
    obtain ⟨-, rfl⟩ | hold := Tasks.append_cases hv
    · exact hu
    · exact hs.tasks m v hold

/-- A row is written, and a task is set. -/
theorem write (hs : AllEarned s) {n : Nat} {u : Task} {row : ReadState}
    (hu : Backed s.accepted s.reported u) (hrow : Earned s.accepted s.reported row.get) : AllEarned { s.set n u with row } where
  row := hrow
  tasks := (hs.set hu).tasks

theorem execMark (hs : AllEarned s) {n : Nat} {chat message : Int} {ok : Bool} {stage : MarkStage}
    (hn : s.tasks[n]? = some (.mark chat message stage))
    (h : s.execMark cfg n chat message ok stage = some t) : AllEarned t := by
  have hmine := hs.tasks n _ hn
  cases stage with
  | looking account watermark =>
    simp only [State.execMark] at h
    split at h
    · split at h <;> exact Option.some.inj h ▸ hs.set trivial
    · exact Option.some.inj h ▸ hs.set trivial
  | getting =>
    simp only [State.execMark] at h
    split at h
    · exact Option.some.inj h ▸ hs.set trivial
    · obtain rfl := Option.some.inj h
      have hasked : AllEarned { s with words := .asked message :: s.words } := ⟨hs.row, hs.tasks⟩
      exact hasked.set trivial
  | marking =>
    simp only [State.execMark] at h
    split at h
    · obtain rfl := Option.some.inj h
      have hgrown : AllEarned { s with words := .heard message :: s.words } :=
        ⟨hs.row.mono (List.subset_cons_self _ _) (List.Subset.refl _),
          fun m v hv => (hs.tasks m v hv).mono (List.subset_cons_self _ _) (List.Subset.refl _)⟩
      have hmem : Backed (message :: s.accepted) s.reported (.mark chat message .noting) :=
        List.mem_cons_self
      exact hgrown.set hmem
    · exact Option.some.inj h ▸ hs.set trivial
  | noting =>
    obtain rfl := Option.some.inj h
    refine hs.set ?_
    split
    · trivial
    · exact ⟨hmine, hs.row⟩
  | writing current =>
    obtain rfl := Option.some.inj h
    refine hs.write trivial ⟨.inr ?_, ?_⟩
    · rw [ownReadMark_writeOwnRead]
      exact hmine.1
    · obtain hsame | hread := contactReadMark_writeOwnRead s.row current message
      · rw [hsame]
        exact hs.row.contact
      · rw [hread]
        exact hmine.2.contact
  | ended result => cases h

theorem execTick (hs : AllEarned s) {n : Nat} {mark : Int} {ok : Bool} {stage : TickStage}
    (hn : s.tasks[n]? = some (.tick mark stage))
    (h : s.execTick cfg n mark ok stage = some t) : AllEarned t := by
  have hmine := hs.tasks n _ hn
  cases stage with
  | looking =>
    have hreported : mark ∈ s.reported := hmine
    simp only [State.execTick] at h
    split at h
    · exact Option.some.inj h ▸ hs.set hreported
    · exact Option.some.inj h ▸ hs.set trivial
  | getting ticked =>
    have hreported : mark ∈ s.reported := hmine
    obtain rfl := Option.some.inj h
    refine hs.set ?_
    split
    · trivial
    · exact ⟨hreported, hs.row⟩
  | writing ticked current =>
    obtain rfl := Option.some.inj h
    have hreported : mark ∈ s.reported := hmine.1
    refine hs.write hreported ⟨?_, .inr ?_⟩
    · obtain hsame | ⟨-, hread⟩ := ownReadMark_writeContactRead s.row current mark (some ticked)
      · rw [hsame]
        exact hs.row.own
      · rw [hread]
        exact hmine.2.own
    · rw [contactReadMark_writeContactRead]
      exact hreported
  | drawing => exact Option.some.inj h ▸ hs.set trivial
  | ended result => cases h

theorem markLatest (hs : AllEarned s) : AllEarned s.markLatest := by
  unfold State.markLatest
  split
  · exact hs.add trivial
  · exact hs

theorem step (hs : AllEarned s) (h : AutoRead.step cfg s e = some t) : AllEarned t := by
  cases e with
  | noteIncoming chat message => exact Option.some.inj h ▸ ⟨hs.row, hs.tasks⟩
  | onDeliveredToTelegram =>
    obtain rfl := Option.some.inj h
    split
    · exact hs.markLatest
    · exact hs
  | onOwnerReplied =>
    obtain rfl := Option.some.inj h
    split
    · exact hs.markLatest
    · exact hs
  | onOwnerRead account watermark =>
    obtain rfl := Option.some.inj h
    split
    · exact hs.add trivial
    · exact hs
  | markNow => exact Option.some.inj h ▸ hs.markLatest
  | onContactRead mark =>
    obtain rfl := Option.some.inj h
    split
    · exact hs
    · have hgrown : AllEarned { s with reported := mark :: s.reported } :=
        ⟨hs.row.mono (List.Subset.refl _) (List.subset_cons_self _ _),
          fun m v hv => (hs.tasks m v hv).mono (List.Subset.refl _) (List.subset_cons_self _ _)⟩
      exact hgrown.add List.mem_cons_self
  | exec n ok =>
    simp only [AutoRead.step] at h
    split at h
    · next hn => exact hs.execMark hn h
    · next hn => exact hs.execTick hn h
    · cases h
  | dies n =>
    simp only [AutoRead.step] at h
    split at h
    · exact Option.some.inj h ▸ hs.set trivial
    · exact Option.some.inj h ▸ hs.set trivial
    · cases h
  | tables map albums => exact Option.some.inj h ▸ ⟨hs.row, hs.tasks⟩
  | restart => exact Option.some.inj h ▸ ⟨hs.row, fun n u hu => by simp at hu⟩

end AllEarned

/-- **Every mark is earned.**  In every run the owner's mark is an id MAX has accepted, the
contact's one that was reported, and a call that leaves MAX alone does so because MAX has accepted
the message or a later one. -/
theorem marks_earned {cfg : Config} {s : State} (h : Run.Reaches (system cfg) Run.anyStep s) :
    Earned s.accepted s.reported s.row.get ∧
      ∀ (n : Nat) (chat message : Int) (ok : Bool) (t : State),
        s.tasks[n]? = some (.mark chat message .getting) → 0 < message →
        step cfg s (.exec n ok) = some t →
          t.tasks[n]? = some (.mark chat message .marking) ∨ ∃ a ∈ s.accepted, message ≤ a := by
  have hs : AllEarned s := h.invariant .start fun _ _ _ hs _ hst => hs.step hst
  refine ⟨hs.row, fun n chat message ok t hn hpos hst => ?_⟩
  have hlt : n < s.tasks.length := (List.getElem?_eq_some_iff.mp hn).1
  simp only [step, hn, State.execMark] at hst
  by_cases hle : message ≤ s.row.get.ownReadMark
  · right
    obtain hzero | hmem := hs.row.own
    · omega
    · exact ⟨_, hmem, hle⟩
  · left
    rw [if_neg hle] at hst
    obtain rfl := Option.some.inj hst
    exact List.getElem?_set_self hlt

/-- The newest message is read twice, and the contact has read up to `50`. -/
def readTwice : List Event :=
  [.noteIncoming 5 70, .markNow, .exec 0 true, .exec 0 true, .exec 0 true, .exec 0 true,
    .onContactRead 50, .exec 1 true, .markNow]

def always : Config where
  bridge := "anna"
  autoRead := .onRead
  style := .suffix

theorem marks_earned_again : ∃ s : State, s.row.get.ownReadMark = 70 ∧
    Earned s.accepted s.reported s.row.get ∧ ∃ a ∈ s.accepted, 70 ≤ a := by
  obtain ⟨s, hs, hfinal⟩ := Run.Reaches.exists_of_play (system always) (fun _ _ => true) readTwice
    (fun s => s.row.get.ownReadMark = 70 &&
      s.tasks[2]? = some (.mark 5 70 .getting) &&
      ((step always s (.exec 2 true)).any fun t => t.tasks[2]? = some (.mark 5 70 (.ended false))))
    (by decide +kernel)
  simp only [Bool.and_eq_true, decide_eq_true_eq, Option.any_eq_true] at hfinal
  obtain ⟨⟨hown, htask⟩, t, hst, hended⟩ := hfinal
  obtain ⟨hearned, hcalls⟩ := marks_earned (hs.mono fun _ _ _ => trivial)
  refine ⟨s, hown, hearned, ?_⟩
  obtain hmarking | haccepted := hcalls 2 5 70 true t htask (by decide) hst
  · rw [hended] at hmarking
    cases hmarking
  · exact haccepted

/-! ## marks that do not overlap -/

/-- The call is between its look at the stored mark and its end. -/
def Task.busy : Task → Bool
  | .mark _ _ (.marking) | .mark _ _ (.noting) | .mark _ _ (.writing _) => true
  | _ => false

/-- MAX is heard to have accepted its mark, and the row does not say so yet. -/
def Task.settling : Task → Bool
  | .mark _ _ (.noting) | .mark _ _ (.writing _) => true
  | _ => false

/-- The call is about to look at the stored mark. -/
def Task.looks : Task → Bool
  | .mark _ _ (.getting) => true
  | _ => false

/-- No call looks at the stored mark while another one is making one, and none ends between the
answer of MAX and the row. -/
def apart (s : State) : Event → Bool
  | .exec n _ => !(s.tasks[n]?).any Task.looks || !s.tasks.any Task.busy
  | .dies n => !(s.tasks[n]?).any Task.settling
  | .restart => !s.tasks.any Task.settling
  | _ => true

/-- The row is at the newest id MAX has accepted. -/
def Settled (accepted : List Int) (row : ReadState) : Prop :=
  ∀ a ∈ accepted, a ≤ row.get.ownReadMark

/-- What holds of a call, in its turn. -/
def Ahead (accepted : List Int) (row : ReadState) : Task → Prop
  | .mark _ message .marking => Settled accepted row ∧ row.get.ownReadMark < message
  | .mark _ message .noting | .mark _ message (.writing _) =>
      ∃ rest, accepted = message :: rest ∧ Settled rest row ∧ row.get.ownReadMark < message
  | .tick _ (.writing _ current) => row = none → current.ownReadMark = 0
  | _ => True

/-- A call that is not busy asks only for the row that is not there. -/
theorem Ahead.of_idle {accepted accepted' : List Int} {row row' : ReadState} {u : Task}
    (hu : Ahead accepted row u) (hidle : u.busy = false) (hrow : row' = none → row = none) :
    Ahead accepted' row' u := by
  cases u with
  | mark chat message stage =>
    cases stage with
    | marking | noting | writing => cases hidle
    | _ => trivial
  | tick mark stage =>
    cases stage with
    | writing ticked current => exact fun h => hu (hrow h)
    | _ => trivial

/-- The row is another one, with the same mark. -/
theorem Ahead.of_same {accepted : List Int} {row row' : ReadState} {u : Task}
    (hu : Ahead accepted row u) (hown : row'.get.ownReadMark = row.get.ownReadMark)
    (hrow : row' = none → row = none) : Ahead accepted row' u := by
  cases u with
  | mark chat message stage =>
    cases stage with
    | marking | noting | writing =>
      simp only [Ahead, Settled, hown] at hu ⊢
      exact hu
    | _ => trivial
  | tick mark stage =>
    cases stage with
    | writing ticked current => exact fun h => hu (hrow h)
    | _ => trivial

theorem Task.busy_of_settling {u : Task} (h : u.settling = true) : u.busy = true := by
  cases u with
  | mark chat message stage => cases stage <;> first | rfl | cases h
  | tick mark stage => cases h

/-- Nothing up to an id that was heard to be accepted is asked for, or heard, after it. -/
def Growing (words : List Word) : Prop :=
  words.Pairwise fun later earlier => earlier.isHeard = true → earlier.message < later.message

theorem Growing.cons {words : List Word} {w : Word} (h : Growing words)
    (hw : ∀ a ∈ (words.filter Word.isHeard).map Word.message, a < w.message) :
    Growing (w :: words) :=
  List.Pairwise.cons
    (fun _ hv hheard => hw _ (List.mem_map_of_mem (List.mem_filter.mpr ⟨hv, hheard⟩))) h

/-- Between themselves, the ids that were heard to be accepted are in order. -/
theorem Growing.accepted {s : State} (h : Growing s.words) : s.accepted.Pairwise (· > ·) := by
  refine List.pairwise_map.mpr (List.Pairwise.imp_of_mem (fun {later earlier} _ he hlt => ?_)
    (h.sublist (List.filter_sublist)))
  exact hlt (List.mem_filter.mp he).2

structure InTurn (s : State) : Prop where
  one : ∀ (n m : Nat) (u v : Task), s.tasks[n]? = some u → s.tasks[m]? = some v → u.busy = true →
    v.busy = true → n = m
  grows : Growing s.words
  tasks : ∀ (n : Nat) (u : Task), s.tasks[n]? = some u → Ahead s.accepted s.row u
  settled : (∀ u ∈ s.tasks, u.settling = false) → Settled s.accepted s.row

namespace InTurn

variable {cfg : Config} {s t : State} {e : Event}

theorem start : InTurn (system cfg).start where
  one n m u v hn := by simp [system] at hn
  grows := List.Pairwise.nil
  tasks n u h := by simp [system] at h
  settled _ a ha := by simp [system, State.accepted] at ha

/-- A call goes on, and becomes busy only while none is. -/
theorem one_set (hs : InTurn s) {n : Nat} {u v : Task} (hn : s.tasks[n]? = some u)
    (hbusy : v.busy = true → u.busy = true ∨ ∀ w ∈ s.tasks, w.busy = false) (i j : Nat)
    (w x : Task) (hi : (s.tasks.set n v)[i]? = some w) (hj : (s.tasks.set n v)[j]? = some x)
    (hw : w.busy = true) (hx : x.busy = true) : i = j := by
  have hother (m : Nat) (y : Task) (hm : s.tasks[m]? = some y) (hy : y.busy = true)
      (hv : v.busy = true) : m = n := by
    obtain hold | hnone := hbusy hv
    · exact hs.one _ _ _ _ hm hn hy hold
    · rw [hnone y (List.mem_of_getElem? hm)] at hy
      cases hy
  obtain ⟨rfl, rfl⟩ | ⟨-, hi'⟩ := Tasks.set_cases hi
  · obtain ⟨rfl, -⟩ | ⟨-, hj'⟩ := Tasks.set_cases hj
    · rfl
    · exact (hother j x hj' hx hw).symm
  · obtain ⟨rfl, rfl⟩ | ⟨-, hj'⟩ := Tasks.set_cases hj
    · exact hother i w hi' hw hx
    · exact hs.one _ _ _ _ hi' hj' hw hx

/-- A call goes on without a write, and does not leave its mark behind. -/
theorem set (hs : InTurn s) {n : Nat} {u v : Task} (hn : s.tasks[n]? = some u)
    (hv : Ahead s.accepted s.row v) (hsettling : u.settling = true → v.settling = true)
    (hbusy : v.busy = true → u.busy = true ∨ ∀ w ∈ s.tasks, w.busy = false) :
    InTurn (s.set n v) where
  one := hs.one_set hn hbusy
  grows := hs.grows
  tasks m w hw := by
    obtain ⟨-, rfl⟩ | ⟨-, hold⟩ := Tasks.set_cases hw
    · exact hv
    · exact hs.tasks m w hold
  settled hnone := by
    have hlt : n < s.tasks.length := (List.getElem?_eq_some_iff.mp hn).1
    have hvmem : v ∈ (s.set n v).tasks := List.mem_set hlt v
    have hu : u.settling = false := by
      cases hcase : u.settling with
      | false => rfl
      | true => rw [← hnone v hvmem, hsettling hcase]
    refine hs.settled fun w hw => ?_
    obtain ⟨m, hm⟩ := List.getElem?_of_mem hw
    by_cases hmn : n = m
    · subst hmn
      rw [hn] at hm
      exact Option.some.inj hm ▸ hu
    · have hkept : (s.set n v).tasks[m]? = some w := by
        rw [← hm]
        exact List.getElem?_set_ne hmn
      exact hnone w (List.mem_of_getElem? hkept)

/-- A new call is not busy. -/
theorem add (hs : InTurn s) {u : Task} (hu : Ahead s.accepted s.row u) (hidle : u.busy = false) :
    InTurn (s.start u) where
  one i j w x hi hj hw hx := by
    obtain ⟨-, rfl⟩ | hi := Tasks.append_cases hi
    · rw [hidle] at hw
      cases hw
    obtain ⟨-, rfl⟩ | hj := Tasks.append_cases hj
    · rw [hidle] at hx
      cases hx
    exact hs.one _ _ _ _ hi hj hw hx
  grows := hs.grows
  tasks m v hv := by
    obtain ⟨-, rfl⟩ | hold := Tasks.append_cases hv
    · exact hu
    · exact hs.tasks m v hold
  settled hnone := hs.settled fun w hw => hnone w (List.mem_append_left _ hw)

/-- A row is written that has the same mark of the owner. -/
theorem write (hs : InTurn s) {row : ReadState}
    (hown : row.get.ownReadMark = s.row.get.ownReadMark) (hrow : row = none → s.row = none) :
    InTurn { s with row } where
  one := hs.one
  grows := hs.grows
  tasks n u hu := (hs.tasks n u hu).of_same hown hrow
  settled hnone a ha := by
    show a ≤ row.get.ownReadMark
    rw [hown]
    exact hs.settled hnone a ha

/-- While a call is busy, the others are not. -/
theorem idle (hs : InTurn s) {n m : Nat} {u v : Task} (hn : s.tasks[n]? = some u)
    (hu : u.busy = true) (hm : s.tasks[m]? = some v) (hne : m ≠ n) : v.busy = false := by
  cases hv : v.busy with
  | false => rfl
  | true => exact absurd (hs.one _ _ _ _ hm hn hv hu) hne

/-- MAX accepts the mark of the call whose turn it is. -/
theorem accept (hs : InTurn s) {n : Nat} {chat message : Int}
    (hn : s.tasks[n]? = some (.mark chat message .marking)) :
    InTurn { s.set n (.mark chat message .noting) with words := .heard message :: s.words } := by
  obtain ⟨hsettled, hlt⟩ : Settled s.accepted s.row ∧ s.row.get.ownReadMark < message :=
    hs.tasks n _ hn
  have hlen : n < s.tasks.length := (List.getElem?_eq_some_iff.mp hn).1
  constructor
  · exact hs.one_set hn fun _ => .inl rfl
  · exact hs.grows.cons fun a ha => Int.lt_of_le_of_lt (hsettled a ha) hlt
  · intro m w hw
    obtain ⟨-, rfl⟩ | ⟨hne, hold⟩ := Tasks.set_cases hw
    · exact ⟨s.accepted, rfl, hsettled, hlt⟩
    · exact (hs.tasks m w hold).of_idle (hs.idle hn rfl hold hne) id
  · intro hnone
    have hmem : Task.mark chat message .noting ∈ s.tasks.set n (.mark chat message .noting) :=
      List.mem_set hlen _
    have := hnone _ hmem
    cases this

/-- MAX is asked, by a call that has found the stored mark behind. -/
theorem ask (hs : InTurn s) {message : Int} (hsettled : Settled s.accepted s.row)
    (hlt : s.row.get.ownReadMark < message) :
    InTurn { s with words := .asked message :: s.words } where
  one := hs.one
  grows := hs.grows.cons fun a ha => Int.lt_of_le_of_lt (hsettled a ha) hlt
  tasks := hs.tasks
  settled := hs.settled

theorem execMark (hs : InTurn s) {n : Nat} {chat message : Int} {ok : Bool} {stage : MarkStage}
    (hn : s.tasks[n]? = some (.mark chat message stage)) (hapart : apart s (.exec n ok) = true)
    (h : s.execMark cfg n chat message ok stage = some t) : InTurn t := by
  have hmine := hs.tasks n _ hn
  have hlen : n < s.tasks.length := (List.getElem?_eq_some_iff.mp hn).1
  cases stage with
  | looking account watermark =>
    have hends (chat' message' : Int) (stage : MarkStage)
        (hidle : (Task.mark chat' message' stage).busy = false) :
        InTurn (s.set n (.mark chat' message' stage)) := by
      refine hs.set hn ?_ nofun fun hb => by rw [hidle] at hb; cases hb
      cases stage with
      | marking | noting | writing => cases hidle
      | _ => trivial
    simp only [State.execMark] at h
    split at h
    · split at h <;> exact Option.some.inj h ▸ hends _ _ _ rfl
    · exact Option.some.inj h ▸ hends _ _ _ rfl
  | getting =>
    have hnone : ∀ w ∈ s.tasks, w.busy = false := by
      simpa [apart, hn, Task.looks] using hapart
    simp only [State.execMark] at h
    split at h
    · exact Option.some.inj h ▸ hs.set hn trivial nofun nofun
    · next hle =>
      obtain rfl := Option.some.inj h
      have hlt : s.row.get.ownReadMark < message := by omega
      have hsettled : Settled s.accepted s.row := hs.settled fun w hw => by
        cases hcase : w.settling with
        | false => rfl
        | true => rw [← hnone w hw, Task.busy_of_settling hcase]
      have hahead : Ahead s.accepted s.row (.mark chat message .marking) := ⟨hsettled, hlt⟩
      exact (hs.ask hsettled hlt).set hn hahead nofun fun _ => .inr hnone
  | marking =>
    simp only [State.execMark] at h
    split at h
    · exact Option.some.inj h ▸ hs.accept hn
    · obtain rfl := Option.some.inj h
      exact hs.set hn trivial nofun nofun
  | noting =>
    obtain rfl := Option.some.inj h
    obtain ⟨rest, -, -, hlt⟩ := id hmine
    rw [if_neg (by omega)]
    exact hs.set hn hmine (fun _ => rfl) fun _ => .inl rfl
  | writing current =>
    obtain rfl := Option.some.inj h
    obtain ⟨rest, hrest, hsettled, hlt⟩ := hmine
    have hown := ownReadMark_writeOwnRead s.row current message
    constructor
    · exact hs.one_set hn nofun
    · exact hs.grows
    · intro m w hw
      obtain ⟨-, rfl⟩ | ⟨hne, hold⟩ := Tasks.set_cases hw
      · trivial
      · exact (hs.tasks m w hold).of_idle (hs.idle hn rfl hold hne) fun hnone =>
          absurd hnone (writeOwnRead_ne_none _ _ _)
    · intro _ a ha
      have hmem : a ∈ message :: rest := hrest ▸ ha
      show a ≤ (s.row.writeOwnRead current message).get.ownReadMark
      rw [hown]
      obtain rfl | hold := List.mem_cons.mp hmem
      · omega
      · have := hsettled a hold
        omega
  | ended result => cases h

theorem execTick (hs : InTurn s) {n : Nat} {mark : Int} {ok : Bool} {stage : TickStage}
    (hn : s.tasks[n]? = some (.tick mark stage))
    (h : s.execTick cfg n mark ok stage = some t) : InTurn t := by
  have hmine := hs.tasks n _ hn
  cases stage with
  | looking =>
    simp only [State.execTick] at h
    split at h <;> exact Option.some.inj h ▸ hs.set hn trivial nofun nofun
  | getting ticked =>
    obtain rfl := Option.some.inj h
    split
    · exact hs.set hn trivial nofun nofun
    · refine hs.set hn (fun hnone => ?_) nofun nofun
      rw [hnone]
      rfl
  | writing ticked current =>
    obtain rfl := Option.some.inj h
    have hset : InTurn (s.set n (.tick mark .drawing)) := hs.set hn trivial nofun nofun
    refine hset.write ?_ fun hnone => absurd hnone (writeContactRead_ne_none _ _ _ _)
    obtain hsame | ⟨hnone, hread⟩ := ownReadMark_writeContactRead s.row current mark (some ticked)
    · exact hsame
    · rw [hread, hmine hnone]
      show 0 = s.row.get.ownReadMark
      rw [hnone]
      rfl
  | drawing => exact Option.some.inj h ▸ hs.set hn trivial nofun nofun
  | ended result => cases h

theorem markLatest (hs : InTurn s) : InTurn s.markLatest := by
  unfold State.markLatest
  split
  · exact hs.add trivial rfl
  · exact hs

theorem step (hs : InTurn s) (hapart : apart s e = true) (h : AutoRead.step cfg s e = some t) :
    InTurn t := by
  cases e with
  | noteIncoming chat message =>
    exact Option.some.inj h ▸ ⟨hs.one, hs.grows, hs.tasks, hs.settled⟩
  | onDeliveredToTelegram =>
    obtain rfl := Option.some.inj h
    split
    · exact hs.markLatest
    · exact hs
  | onOwnerReplied =>
    obtain rfl := Option.some.inj h
    split
    · exact hs.markLatest
    · exact hs
  | onOwnerRead account watermark =>
    obtain rfl := Option.some.inj h
    split
    · exact hs.add trivial rfl
    · exact hs
  | markNow => exact Option.some.inj h ▸ hs.markLatest
  | onContactRead mark =>
    obtain rfl := Option.some.inj h
    split
    · exact hs
    · have hadded : InTurn (s.start (.tick mark .looking)) := hs.add trivial rfl
      exact ⟨hadded.one, hadded.grows, hadded.tasks, hadded.settled⟩
  | exec n ok =>
    simp only [AutoRead.step] at h
    split at h
    · next hn => exact hs.execMark hn hapart h
    · next hn => exact hs.execTick hn h
    · cases h
  | dies n =>
    simp only [AutoRead.step] at h
    split at h
    · next hn =>
      obtain rfl := Option.some.inj h
      refine hs.set hn trivial (fun hsettling => ?_) nofun
      simp [apart, hn, hsettling] at hapart
    · next hn =>
      obtain rfl := Option.some.inj h
      exact hs.set hn trivial nofun nofun
    · cases h
  | tables map albums => exact Option.some.inj h ▸ ⟨hs.one, hs.grows, hs.tasks, hs.settled⟩
  | restart =>
    have hnone : ∀ u ∈ s.tasks, u.settling = false := by
      simpa [apart] using hapart
    obtain rfl := Option.some.inj h
    exact ⟨fun n m u v hn => by simp at hn, hs.grows, fun n u hn => by simp at hn,
      fun _ => hs.settled hnone⟩

end InTurn

/-- **In turn, marks only grow.**  While no call looks at the stored mark during another one's and
none ends between the answer of MAX and the row, MAX is asked for nothing up to an id it was heard
to accept, so that those ids come in increasing order; a request whose answer is lost may be made
again.  Between the calls the stored mark is at the newest id that was heard. -/
theorem marks_increase {cfg : Config} {s : State}
    (h : Run.Reaches (system cfg) (fun s e => apart s e = true) s) :
    Growing s.words ∧ s.accepted.Pairwise (· > ·) ∧
      ((∀ u ∈ s.tasks, u.settling = false) → Settled s.accepted s.row) := by
  have hs : InTurn s := h.invariant .start fun _ _ _ hs he hst => hs.step he hst
  exact ⟨hs.grows, hs.grows.accepted, hs.settled⟩

/-- The owner replies to one message, and the answer of MAX is lost; the mark is made again for a
second reply, and then for the next message. -/
def repliedTwice : List Event :=
  [.noteIncoming 5 70, .onOwnerReplied, .exec 0 true, .exec 0 false, .onOwnerReplied,
    .exec 1 true, .exec 1 true, .exec 1 true, .exec 1 true, .noteIncoming 5 80,
    .onOwnerReplied, .exec 2 true, .exec 2 true, .exec 2 true, .exec 2 true, .markNow,
    .exec 3 true]

theorem marks_increase_replied : ∃ s : State,
    s.words = [.heard 80, .asked 80, .heard 70, .asked 70, .asked 70] ∧ Growing s.words ∧
      s.accepted.Pairwise (· > ·) ∧ Settled s.accepted s.row := by
  obtain ⟨s, hs, hfinal⟩ := Run.Reaches.exists_of_play (system always) apart repliedTwice
    (fun s => s.words = [.heard 80, .asked 80, .heard 70, .asked 70, .asked 70] &&
      s.tasks.all fun u => !u.settling) (by decide +kernel)
  simp only [Bool.and_eq_true, decide_eq_true_eq, List.all_eq_true, Bool.not_eq_true'] at hfinal
  obtain ⟨hgrows, haccepted, hsettled⟩ := marks_increase hs
  exact ⟨s, hfinal.1, hgrows, haccepted, hsettled hfinal.2⟩

end Telemax.Presence.AutoRead
