import Mathlib.Logic.Function.Basic

/-!
# Telemax.Onboarding.State

Where onboarding is: the record on disk, and any number of `StateStore` objects
over the one file, each with its own cache.
-/

namespace Telemax.Onboarding

/-- How far the deployment has got. -/
inductive Stage
  | bootstrapConfigured
  | botRunning
  | maxOnboardingPending
  | maxSessionValid
  | bridgeRunning
  deriving DecidableEq, Repr

/-- Its place among the values of `Stage`. -/
def Stage.rank : Stage → Nat
  | .bootstrapConfigured => 0
  | .botRunning => 1
  | .maxOnboardingPending => 2
  | .maxSessionValid => 3
  | .bridgeRunning => 4

/-- Which question the guardian is waiting on. -/
inductive Step
  | idle
  | waitingForTimezone
  | waitingForPhoneChoice
  | waitingForPhone
  | waitingForCode
  | waitingFor2fa
  | validating
  | saving
  | startingBridge
  | completed
  deriving DecidableEq, Repr

/-- `EPHEMERAL_STEPS`: they only exist inside a live login attempt. -/
def Step.ephemeral : Step → Bool
  | .waitingForCode | .waitingFor2fa | .validating | .saving => true
  | _ => false

structure OnboardingRecord where
  stage : Stage := .bootstrapConfigured
  step : Step := .idle
  maxPhoneMode : Option String := none
  statusChatId : Option Int := none
  statusMessageId : Option Int := none
  notifications : List (String × Int) := []
  screenRevision : Int := 0
  deriving DecidableEq, Repr

/-- A step that cannot survive a restart is asked again from the phone. -/
def OnboardingRecord.rewind (r : OnboardingRecord) : OnboardingRecord :=
  if r.step.ephemeral then { r with step := .waitingForPhone } else r

/-- What an `update` is told to change. -/
structure Changes where
  stage : Option Stage := none
  step : Option Step := none
  maxPhoneMode : Option String := none
  status : Option (Option Int × Option Int) := none
  notifications : Option (List (String × Int)) := none
  screenRevision : Option Int := none
  deriving DecidableEq, Repr

def Changes.apply (c : Changes) (r : OnboardingRecord) : OnboardingRecord where
  stage := c.stage.getD r.stage
  step := c.step.getD r.step
  maxPhoneMode := c.maxPhoneMode.or r.maxPhoneMode
  statusChatId := (c.status.map (·.1)).getD r.statusChatId
  statusMessageId := (c.status.map (·.2)).getD r.statusMessageId
  notifications := c.notifications.getD r.notifications
  screenRevision := c.screenRevision.getD r.screenRevision

/-- Notifications, the screen revision, the status message. -/
def Changes.unrelated (c : Changes) : Bool :=
  c.stage.isNone && c.step.isNone && c.maxPhoneMode.isNone

/-- The file, and what each store has of it in memory. -/
structure Stores where
  file : Option OnboardingRecord := none
  cached : Nat → Option OnboardingRecord := fun _ => none

namespace Stores

/-- `_read`. -/
def read (s : Stores) : OnboardingRecord := s.file.getD {}

/-- `load`: from the cache, which is filled from the file. -/
def load (s : Stores) (store : Nat) : OnboardingRecord × Stores :=
  match s.cached store with
  | some record => (record, s)
  | none =>
      (s.read.rewind, { s with cached := Function.update s.cached store (some s.read.rewind) })

/-- `update`: over what is in the file, not over the cache. -/
def update (s : Stores) (store : Nat) (changes : Changes) : Stores :=
  let record := changes.apply s.read.rewind
  { file := some record, cached := Function.update s.cached store (some record) }

@[simp] theorem read_update (s : Stores) (store : Nat) (changes : Changes) :
    (s.update store changes).read = changes.apply s.read.rewind := rfl

theorem stage_update (s : Stores) (store : Nat) (changes : Changes) :
    (s.update store changes).read.stage = changes.stage.getD s.read.stage := by
  simp only [read_update, Changes.apply, OnboardingRecord.rewind]
  split <;> rfl

/-- The file is read, and not written. -/
@[simp] theorem read_load (s : Stores) (store : Nat) : (s.load store).2.read = s.read := by
  unfold load
  split <;> rfl

/-- What a store has in memory stays. -/
theorem cached_load {s : Stores} {store : Nat} {r : OnboardingRecord} (other : Nat)
    (h : s.cached store = some r) : (s.load other).2.cached store = some r := by
  unfold load
  split
  · exact h
  · next hnone =>
      have hne : store ≠ other := by
        rintro rfl
        exact absurd (h.symm.trans hnone) nofun
      exact (Function.update_of_ne hne _ _).trans h

end Stores

end Telemax.Onboarding
