import Telemax.Queue.Invariants

/-!
# Telemax.Queue.Payloads

Where the payloads in the queue come from.  A payload is filed with its job, is
carried from the row to the attempts and back, and is only ever cleared or
rewritten under its key; so what is said of every payload that is filed holds of
all of them (`Carried`).
-/

namespace Telemax.Queue

open Outbox

/-- The jobs an event describes. -/
def Event.specs : Event → List JobSpec
  | .submit spec _ => [spec]
  | .enqueueBatch specs => specs
  | _ => []

/-- The event rewrites the payload of the row under this key. -/
def Rewrites (e : Event) (key : String) (payload : Payload) : Prop :=
  e = .replacePendingPayload key payload ∨ e = .replaceFailedPayload key payload

/-- A row that appears is a job the event describes, or the one an attempt is for. -/
theorem RowBorn.spec {s : State} {i : Nat} {e : Event} {r : OutboxItem} {l : Option Nat}
    (h : RowBorn s i e r l) :
    ∃ spec, (spec ∈ e.specs ∨ ∃ a x, s.attempts.get? a = some x ∧ x.spec = spec) ∧
      r.kind = spec.kind ∧ r.sourceKey = some spec.sourceKey ∧ r.payload = spec.payload := by
  cases h with
  | @submitted spec barrier hi => exact ⟨spec, .inl List.mem_cons_self, rfl, rfl, rfl⟩
  | @batched specs spec hmem hi => exact ⟨spec, .inl hmem, rfl, rfl, rfl⟩
  | @leased a x hx hp hkey hi => exact ⟨x.spec, .inr ⟨a, x, hx, rfl⟩, rfl, rfl, rfl⟩

/-- An event keeps the payload of a row, clears it, or rewrites it under its key. -/
theorem RowChange.payload {s : State} {i : Nat} {r r' : OutboxItem} {e : Event}
    {l : Option Nat} (h : RowChange s i r e r' l) :
    r'.payload = r.payload ∨ r'.payload = .cleared ∨
      ∃ key, r.sourceKey = some key ∧ Rewrites e key r'.payload := by
  cases h with
  | @settled a backoff x outcome hx hp hj ho =>
      cases outcome with
      | delivered remoteId => exact .inr (.inl rfl)
      | raised error => exact .inl (settleRow_raised_kept ..).2
  | reclaimed | requeued =>
      unfold recover
      split <;> exact .inl rfl
  | expired => exact .inr (.inl rfl)
  | @decided index decision read hd =>
      cases decision with
      | resolve => exact .inr (.inl rfl)
      | retryNow | archive => exact .inl rfl
  | @rewritten _ key payload hw hkey he =>
      refine .inr (.inr ⟨key, hkey, ?_⟩)
      rcases he with ⟨rfl, -⟩ | ⟨rfl, -⟩
      · exact .inl rfl
      · exact .inr rfl
  | _ => exact .inl rfl

/-- An attempt is for a job the event describes, or takes its job from a row. -/
theorem AttemptBorn.spec {s t : State} {a : Nat} {e : Event} {y : Attempt}
    (h : AttemptBorn s t a e y) :
    y.spec ∈ e.specs ∨ ∃ i r, s.outbox.get? i = some r ∧ y.spec.kind = r.kind ∧
      y.spec.sourceKey = r.sourceKey.getD "" ∧ y.spec.payload = r.payload := by
  cases h with
  | submitted => exact .inl List.mem_cons_self
  | enqueued => exact .inl List.mem_cons_self
  | @tookUp bridge limit batch i r hdue hr hl =>
      exact .inr ⟨i, r, (due_pending hdue).1, rfl, rfl, rfl⟩

/-- `P` holds of the kind, the key and the payload of every row and every attempt. -/
structure Carried (P : JobKind → String → Payload → Prop) (s : State) : Prop where
  row : ∀ i r, s.outbox.get? i = some r → ∃ key, r.sourceKey = some key ∧ P r.kind key r.payload
  attempt : ∀ a x, s.attempts.get? a = some x → P x.spec.kind x.spec.sourceKey x.spec.payload

theorem Carried.start (P : JobKind → String → Payload → Prop) : Carried P {} where
  row := fun i r hr => by simp at hr
  attempt := fun a x hx => by simp at hx

theorem Carried.mono {P Q : JobKind → String → Payload → Prop} {s : State} (hs : Carried P s)
    (h : ∀ kind key payload, P kind key payload → Q kind key payload) : Carried Q s where
  row := fun i r hr => by
    obtain ⟨key, hkey, hP⟩ := hs.row i r hr
    exact ⟨key, hkey, h _ _ _ hP⟩
  attempt := fun a x hx => h _ _ _ (hs.attempt a x hx)

/-- **What is filed is carried**: one event keeps `P` of all payloads, if `P` is
true of what the event files and of what it writes over another payload, and
stays true when a payload is cleared. -/
theorem Carried.step {P : JobKind → String → Payload → Prop} {s t : State} {e : Event}
    (hs : Carried P s) (h : step s e = some t)
    (hclear : ∀ kind key payload, P kind key payload → P kind key .cleared)
    (hfile : ∀ spec ∈ e.specs, P spec.kind spec.sourceKey spec.payload)
    (hrewrite : ∀ kind key old payload, Rewrites e key payload → P kind key old →
      P kind key payload) : Carried P t where
  row := by
    intro i r' hr'
    rcases (step_after h).row_from hr' with ⟨r, hr, hc⟩ | ⟨-, hborn⟩
    · obtain ⟨key, hkey, hP⟩ := hs.row i r hr
      obtain ⟨-, -, hkind, hkey'⟩ := hc.sameJob
      refine ⟨key, hkey'.trans hkey, ?_⟩
      rw [hkind]
      rcases hc.payload with hsame | hcleared | ⟨key', hk, hre⟩
      · rwa [hsame]
      · rw [hcleared]
        exact hclear _ _ _ hP
      · rw [hkey, Option.some.injEq] at hk
        subst hk
        exact hrewrite _ _ _ _ hre hP
    · obtain ⟨spec, hfrom, hkind, hkey, hpayload⟩ := hborn.spec
      refine ⟨spec.sourceKey, hkey, ?_⟩
      rw [hkind, hpayload]
      rcases hfrom with hmem | ⟨a, x, hx, rfl⟩
      · exact hfile spec hmem
      · exact hs.attempt a x hx
  attempt := by
    intro a y hy
    rcases (step_after h).attempt_from hy with ⟨x, hx, hc⟩ | ⟨-, hborn⟩
    · rw [hc.spec_eq]
      exact hs.attempt a x hx
    · rcases hborn.spec with hmem | ⟨i, r, hr, hkind, hkey, hpayload⟩
      · exact hfile _ hmem
      · obtain ⟨key, hk, hP⟩ := hs.row i r hr
        rw [hkind, hkey, hk, hpayload]
        exact hP

end Telemax.Queue
