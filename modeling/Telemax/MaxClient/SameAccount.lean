import Telemax.Lib.Run
import Telemax.MaxClient.Identity

/-!
# Telemax.MaxClient.SameAccount

Starts of the process over one session directory, one after the other: each
loads the identity and counts the launch.  Between any two file operations the
power may go, and a primary may go bad.

As long as a primary that has gone bad is missing, or refused by the system, the
account goes on showing the same phone.  One that is still read is a different
matter: bytes that are no UTF-8 stop the start, and a text that does not parse is
moved over the good copy by the very write that recovers it.  And a counter that
goes bad after its count was read, and before `write_atomic` looks at it, is
replaced without a new copy: until the next launch the copy is two behind.
-/

namespace Telemax.MaxClient.Starts

open Script

inductive StateFile
  | identity
  | counter
  deriving DecidableEq, Repr

/-- Where a start is. -/
inductive Phase
  | down
  | identity (x : FileProg MaxIdentity)
  | counter (x : FileProg Int)

structure State where
  identity : Slot
  counter : Slot
  phase : Phase
  /-- What the loads have returned, newest first. -/
  identities : List (Except ReadError MaxIdentity)
  sessionIds : List (Except ReadError Int)
  /-- For each start that came to its end: both files and their copies parse. -/
  mended : List Bool

inductive Event
  | start (timezone : Option String) (sessionExists : Bool)
  | step (chance : Chance)
  | powerCut
  | damage (file : StateFile) (contents : Contents)
  deriving DecidableEq, Repr

namespace State

/-- The load goes on, or is over and the launch is counted. -/
def loading (s : State) : FileProg MaxIdentity → State
  | .done i =>
      { s with phase := .counter nextClientSessionId, counter.hit := false,
               identities := .ok i :: s.identities }
  | .fail e => { s with phase := .down, identities := .error e :: s.identities }
  | .ask op k => { s with phase := .identity (.ask op k) }

/-- Both primaries parse, unless one has gone bad since this start last looked at it, and so do the
copies. -/
def wholeAgain (s : State) : Bool :=
  s.identity.whole MaxIdentity.parse && s.counter.whole parseCount

def counting (s : State) : FileProg Int → State
  | .done n =>
      { s with phase := .down, sessionIds := .ok n :: s.sessionIds,
               mended := s.wholeAgain :: s.mended }
  | .fail e => { s with phase := .down, sessionIds := .error e :: s.sessionIds }
  | .ask op k => { s with phase := .counter (.ask op k) }

/-- A primary goes bad: it is missing, or cannot be read, or says nothing that parses. -/
def damage (s : State) : StateFile → Contents → Option State
  | .identity, c =>
      if c.parses MaxIdentity.parse = none then
        some { s with identity := ⟨{ s.identity.pair with primary := c }, true⟩ }
      else none
  | .counter, c =>
      if c.parses parseCount = none then
        some { s with counter := ⟨{ s.counter.pair with primary := c }, true⟩ }
      else none

def step (s : State) : Event → Option State
  | .start timezone sessionExists =>
      match s.phase with
      | .down =>
          some { s with
            phase := .identity (loadOrCreate timezone sessionExists), identity.hit := false }
      | _ => none
  | .step chance =>
      match s.phase with
      | .identity (.ask op k) =>
          some (loading { s with identity := s.identity.next op } (k (s.identity.pair.answer chance op)))
      | .counter (.ask op k) =>
          some (counting { s with counter := s.counter.next op } (k (s.counter.pair.answer chance op)))
      | _ => none
  | .powerCut => some { s with phase := .down }
  | .damage file contents => s.damage file contents

/-- The step reads no primary that has gone bad and is still handed out, and takes no counter
whose copy is more than one launch behind it. -/
def spares (s : State) : Event → Bool
  | .step _ =>
      match s.phase with
      | .identity (.ask op _) => op.spares MaxIdentity.parse s.identity.pair
      | .counter (.ask op _) => op.spares parseCount s.counter.pair
      | _ => true
  | .damage .counter _ => s.counter.pair.abreast
  | _ => true

/-- What the starts have shown of the account. -/
structure SameAccount (shown : MaxIdentity) (s : State) : Prop where
  identities : ∀ r ∈ s.identities, r = .ok shown
  sessionIds : ∃ ns : List Int, s.sessionIds = ns.map .ok ∧ ns.Pairwise (· ≥ ·) ∧ ∀ n ∈ ns, 1 < n
  mended : ∀ m ∈ s.mended, m = true

end State

/-- Both files and their copies are as a start has written them. -/
structure Intact (shown : MaxIdentity) (identity counter : Pair) : Prop where
  shownFirst : identity.primary.parses MaxIdentity.parse = some shown
  shownCopy : identity.backup.parses MaxIdentity.parse = some shown
  countFirst : ∃ n, 1 ≤ n ∧ counter.primary = .text (.number n)
  countCopy : ∃ m, 1 ≤ m ∧ counter.backup = .text (.number m)

def sys (identity counter : Pair) : Run.Sys State Event where
  start := ⟨⟨identity, false⟩, ⟨counter, false⟩, .down, [], [], []⟩
  step := State.step

/-! ## what a start keeps -/

/-- A start that is under way has something to ask. -/
def Phase.asks : Phase → Prop
  | .down => True
  | .identity x => ∃ op k, x = .ask op k
  | .counter x => ∃ op k, x = .ask op k

namespace State

/-- The last launch that was counted. -/
def last (s : State) : Int :=
  match s.sessionIds with
  | .ok n :: _ => n
  | _ => 0

/-- Wherever the start is stopped, the next one finds what it needs. -/
def Resumes (shown : MaxIdentity) (s : State) : Prop :=
  match s.phase with
  | .down => True
  | .identity x =>
      Endures MaxIdentity.parse anyMoment (KeepsIdentity shown) s.identity x
        fun t r => r = .ok shown ∧ t.whole MaxIdentity.parse = true
  | .counter x =>
      s.identity.whole MaxIdentity.parse = true ∧
      Endures parseCount Pair.abreast (KeepsCount s.last) s.counter x
        fun t r => ∃ n, r = .ok n ∧ s.last ≤ n ∧ 2 ≤ n ∧ KeepsCount n t.pair ∧
          t.whole parseCount = true

structure Kept (shown : MaxIdentity) (s : State) : Prop where
  same : s.SameAccount shown
  identity : KeepsIdentity shown s.identity.pair
  counter : KeepsCount s.last s.counter.pair
  asks : s.phase.asks
  resumes : s.Resumes shown

namespace Kept

variable {shown : MaxIdentity} {s t : State}

/-- A start under way goes on with its load. -/
theorem loading (same : s.SameAccount shown) (counter : KeepsCount s.last s.counter.pair)
    {x : FileProg MaxIdentity}
    (hx : Endures MaxIdentity.parse anyMoment (KeepsIdentity shown) s.identity x
      fun t r => r = .ok shown ∧ t.whole MaxIdentity.parse = true) :
    (s.loading x).Kept shown := by
  have hnow := Withstands.now hx Slot.Hit.refl
  cases x with
  | done i =>
      obtain ⟨-, hi, hwhole⟩ := hx
      obtain rfl := Except.ok.inj hi
      refine ⟨⟨?_, same.sessionIds, same.mended⟩, hnow, counter, ⟨_, _, rfl⟩, hwhole, ?_⟩
      · exact List.forall_mem_cons.mpr ⟨rfl, same.identities⟩
      · exact endures_nextClientSessionId counter
  | fail e => exact nomatch hx.2.1
  | ask op k => exact ⟨⟨same.identities, same.sessionIds, same.mended⟩, hnow, counter, ⟨op, k, rfl⟩, hx⟩

/-- The head of the launches is the last one counted. -/
theorem last_of_map {ns : List Int} (h : s.sessionIds = ns.map .ok) : s.last = ns.headD 0 := by
  cases ns with
  | nil => simp [State.last, h]
  | cons n ns => simp [State.last, h]

/-- A start under way goes on with the count of its launch. -/
theorem counting (same : s.SameAccount shown) (identity : KeepsIdentity shown s.identity.pair)
    (hload : s.identity.whole MaxIdentity.parse = true) {x : FileProg Int}
    (hx : Endures parseCount Pair.abreast (KeepsCount s.last) s.counter x
      fun t r => ∃ n, r = .ok n ∧ s.last ≤ n ∧ 2 ≤ n ∧ KeepsCount n t.pair ∧
        t.whole parseCount = true) : (s.counting x).Kept shown := by
  have hnow := Withstands.now hx Slot.Hit.refl
  cases x with
  | done n =>
      obtain ⟨-, _, hn, hlast, htwo, hkeeps, hwhole⟩ := hx
      obtain rfl := Except.ok.inj hn
      refine ⟨⟨same.identities, ?_, ?_⟩, identity, hkeeps, trivial, trivial⟩
      · obtain ⟨ns, hns, hordered, habove⟩ := same.sessionIds
        refine ⟨n :: ns, by simp [State.counting, hns], List.pairwise_cons.mpr ⟨?_, hordered⟩,
          List.forall_mem_cons.mpr ⟨by omega, habove⟩⟩
        intro m hm
        rw [last_of_map hns] at hlast
        cases ns with
        | nil => cases hm
        | cons first ns =>
            rcases List.mem_cons.mp hm with rfl | hrest
            · exact hlast
            · exact Int.le_trans ((List.pairwise_cons.mp hordered).1 m hrest) hlast
      · exact List.forall_mem_cons.mpr ⟨by simp [State.wholeAgain, hload, hwhole], same.mended⟩
  | fail e =>
      obtain ⟨-, _, hn, -⟩ := hx
      exact nomatch hn
  | ask op k =>
      exact ⟨⟨same.identities, same.sessionIds, same.mended⟩, identity, hnow, ⟨op, k, rfl⟩, hload, hx⟩

/-- A primary that goes bad takes nothing from its copy. -/
theorem damage (h : s.Kept shown) {file : StateFile} {c : Contents}
    (hok : s.spares (.damage file c) = true) (hst : s.damage file c = some t) : t.Kept shown := by
  obtain ⟨⟨hidentities, hsessionIds, hmended⟩, hidentity, hcounter, hasks, hresumes⟩ := h
  cases file with
  | identity =>
      obtain ⟨hc, rfl⟩ : _ ∧ _ = t := by simpa [State.damage] using hst
      have hhit : s.identity.Hit MaxIdentity.parse anyMoment
          ⟨{ s.identity.pair with primary := c }, true⟩ := .inr ⟨rfl, rfl, hc, rfl⟩
      refine ⟨⟨hidentities, hsessionIds, hmended⟩, (KeepsIdentity.stable shown).hit hidentity hhit,
        hcounter, hasks, ?_⟩
      cases hphase : s.phase with
      | down => simp only [Resumes]
      | identity x =>
          simp only [Resumes, hphase, Phase.asks] at hresumes hasks ⊢
          obtain ⟨op, k, rfl⟩ := hasks
          exact hresumes.changed Slot.Hit.trans hhit
      | counter x =>
          simp only [Resumes, hphase] at hresumes ⊢
          exact ⟨hhit.whole hresumes.1, hresumes.2⟩
  | counter =>
      obtain ⟨hc, rfl⟩ : _ ∧ _ = t := by simpa [State.damage] using hst
      have hhit : s.counter.Hit parseCount Pair.abreast
          ⟨{ s.counter.pair with primary := c }, true⟩ := .inr ⟨hok, rfl, hc, rfl⟩
      refine ⟨⟨hidentities, hsessionIds, hmended⟩, hidentity,
        (KeepsCount.stable s.last).hit hcounter hhit, hasks, ?_⟩
      cases hphase : s.phase with
      | down => simp only [Resumes]
      | identity x =>
          simp only [Resumes, hphase] at hresumes ⊢
          exact hresumes
      | counter x =>
          simp only [Resumes, hphase, Phase.asks] at hresumes hasks ⊢
          obtain ⟨op, k, rfl⟩ := hasks
          exact ⟨hresumes.1, hresumes.2.changed Slot.Hit.trans hhit⟩

theorem step (h : s.Kept shown) {e : Event} (hok : s.spares e = true) (hst : s.step e = some t) :
    t.Kept shown := by
  have hresumes := h.resumes
  cases e with
  | start timezone sessionExists =>
      cases hphase : s.phase with
      | down =>
          obtain rfl : _ = t := by simpa [State.step, hphase] using hst
          exact ⟨⟨h.same.identities, h.same.sessionIds, h.same.mended⟩, h.identity, h.counter,
            ⟨_, _, rfl⟩,
            endures_loadOrCreate (s := ⟨s.identity.pair, false⟩) h.identity timezone sessionExists⟩
      | identity x | counter x => simp [State.step, hphase] at hst
  | powerCut =>
      obtain rfl := Option.some.inj hst
      exact ⟨⟨h.same.identities, h.same.sessionIds, h.same.mended⟩, h.identity, h.counter, trivial,
        trivial⟩
  | damage file c => exact h.damage hok hst
  | step chance =>
      simp only [State.step] at hst
      split at hst
      · next op k hphase =>
          obtain rfl := Option.some.inj hst
          simp only [Resumes, hphase] at hresumes
          simp only [spares, hphase] at hok
          exact loading (s := { s with identity := s.identity.next op })
            ⟨h.same.identities, h.same.sessionIds, h.same.mended⟩ h.counter
            (hresumes.step Slot.Hit.refl hok chance)
      · next op k hphase =>
          obtain rfl := Option.some.inj hst
          simp only [Resumes, hphase] at hresumes
          simp only [spares, hphase] at hok
          exact counting (s := { s with counter := s.counter.next op })
            ⟨h.same.identities, h.same.sessionIds, h.same.mended⟩ h.identity hresumes.1
            (hresumes.2.step Slot.Hit.refl hok chance)
      · cases hst

theorem start {identity counter : Pair} (h : Intact shown identity counter) :
    (sys identity counter).start.Kept shown where
  same := ⟨nofun, ⟨[], rfl, .nil, nofun⟩, nofun⟩
  identity := ⟨h.shownCopy, fun i hi => Option.some.inj (hi.symm.trans h.shownFirst)⟩
  counter := by
    obtain ⟨m, hpos, hm⟩ := h.countCopy
    obtain ⟨n, hone, hn⟩ := h.countFirst
    refine ⟨⟨m, hm, hpos, fun _ => ?_⟩, fun n' hn' => ?_⟩
    · change (0 : Int) ≤ m + 1
      omega
    · obtain ⟨rfl⟩ := hn.symm.trans hn'
      change 1 ≤ n ∧ (0 : Int) ≤ n
      omega
  asks := trivial
  resumes := trivial

end Kept

end State

/-- **A damaged state file never changes what the account reports**, in every run that reads no
primary that has gone bad and is still handed out, and in which no counter goes bad while its copy
is more than one launch behind it. -/
theorem account_unchanged (shown : MaxIdentity) (identity counter : Pair)
    (hi : Intact shown identity counter) (s : State)
    (h : Run.Reaches (sys identity counter) (fun s e => s.spares e = true) s) :
    s.SameAccount shown := by
  have hkept : s.Kept shown := by
    induction h with
    | start => exact State.Kept.start hi
    | step _ hok hst ih => exact ih.step hok hst
  exact hkept.same

/-! ## primaries that go bad -/

/-- The phone of an install, after its seventh launch. -/
def pixel : MaxIdentity := LEGACY_IDENTITY "00aa00aa00aa00aa"

def pixelFile : Pair := ⟨.text (.object pixel.asdict), .text (.object pixel.asdict)⟩

def seventh : Pair := ⟨.text (.number 7), .text (.number 6)⟩

theorem intact_pixel : Intact pixel pixelFile seventh :=
  ⟨rfl, rfl, ⟨7, by decide, rfl⟩, ⟨6, by decide, rfl⟩⟩

/-- `n` file operations, the token drawn being "ff". -/
def operations (n : Nat) : List Event := List.replicate n (.step ⟨("", "", "", ""), "ff"⟩)

def upgrade : Event := .start none true

/-- Both primaries are gone, and the power is cut in the recovery; the next start goes through,
and so does the one after it, though the counter goes bad under its hands. -/
theorem account_unchanged_recovered :
    ∃ s, Run.Reaches (sys pixelFile seventh) (fun s e => s.spares e = true) s ∧
      s.identities = [.ok pixel, .ok pixel] ∧ s.sessionIds = [.ok 8, .ok 7] ∧
      s.SameAccount pixel := by
  obtain ⟨s, hs, hfinal⟩ := Run.Reaches.exists_of_play (sys pixelFile seventh) State.spares
    ([.damage .identity .unreadable, .damage .counter .absent, upgrade] ++ operations 4 ++
      [.powerCut, upgrade] ++ operations 12 ++
      [upgrade] ++ operations 3 ++ [.damage .counter .absent] ++ operations 3)
    (fun s => decide (s.identities = [.ok pixel, .ok pixel] ∧ s.sessionIds = [.ok 8, .ok 7]))
    (by decide +kernel)
  obtain ⟨hi, hn⟩ := of_decide_eq_true hfinal
  exact ⟨s, hs, hi, hn, account_unchanged pixel _ _ intact_pixel s hs⟩

/-- The primary is empty: the write that recovers it moves the empty text over the copy, the
power is cut, and the next start shows another phone.  And a counter goes bad after its count was
read: the copy is left as it was, and when the counter goes bad once more, the next launch counts
below the one before. -/
theorem not_account_unchanged :
    (∃ s, Run.Reaches (sys pixelFile seventh) Run.anyStep s ∧
      s.identities = [.ok (LEGACY_IDENTITY "ff")] ∧ ¬s.SameAccount pixel) ∧
    ∃ s, Run.Reaches (sys pixelFile seventh) Run.anyStep s ∧
      s.sessionIds = [.ok 7, .ok 8] ∧ ¬s.SameAccount pixel := by
  constructor
  · obtain ⟨s, hs, hfinal⟩ := Run.Reaches.exists_of_play (sys pixelFile seventh) (fun _ _ => true)
      ([.damage .identity (.text (.other "")), upgrade] ++ operations 5 ++
        [.powerCut, upgrade] ++ operations 9)
      (fun s => decide (s.identities = [.ok (LEGACY_IDENTITY "ff")])) (by decide +kernel)
    have hidentities := of_decide_eq_true hfinal
    refine ⟨s, hs.mono fun _ _ _ => trivial, hidentities, fun h => ?_⟩
    exact absurd (h.identities _ (by rw [hidentities]; exact .head _)) (by decide)
  · obtain ⟨s, hs, hfinal⟩ := Run.Reaches.exists_of_play (sys pixelFile seventh) (fun _ _ => true)
      ([upgrade] ++ operations 3 ++ [.damage .counter .absent] ++ operations 3 ++
        [.damage .counter .absent, upgrade] ++ operations 7)
      (fun s => decide (s.sessionIds = [.ok 7, .ok 8])) (by decide +kernel)
    have hcounted := of_decide_eq_true hfinal
    refine ⟨s, hs.mono fun _ _ _ => trivial, hcounted, fun h => ?_⟩
    obtain ⟨ns, hns, hordered, -⟩ := h.sessionIds
    rw [hcounted] at hns
    cases ns with
    | nil => cases hns
    | cons n rest =>
        cases rest with
        | nil => cases hns
        | cons m rest =>
            simp only [List.map_cons, List.cons.injEq, Except.ok.injEq] at hns
            obtain ⟨rfl, rfl, -⟩ := hns
            exact absurd ((List.pairwise_cons.mp hordered).1 8 List.mem_cons_self) (by decide)

end Telemax.MaxClient.Starts
