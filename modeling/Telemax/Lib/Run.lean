import Mathlib.Data.Option.Basic

/-!
# Telemax.Lib.Run

Transition systems whose steps are executable: a start state and a partial
step function over events, `none` meaning that the event is not possible in
that state.  Nothing here is about a particular system.

Two views of a run are kept side by side:

* `Reaches sys ok s` — an inductive predicate, for proofs: `s` is reached by
  steps that all satisfy the side condition `ok` on the state before the step
  and the event;
* `play sys s es` — a fold over a list of events, for evaluating one run.

`Reaches.of_play` connects them: a list that plays through is a run.
-/

namespace Run

universe u v

/-- A transition system: where it starts and what each event does. -/
structure Sys (σ : Type u) (ε : Type v) where
  start : σ
  step : σ → ε → Option σ

variable {σ : Type u} {ε : Type v}

/-- The states reached from the start by steps that all satisfy `ok`. -/
inductive Reaches (sys : Sys σ ε) (ok : σ → ε → Prop) : σ → Prop
  | start : Reaches sys ok sys.start
  | step {s t : σ} {e : ε} (hs : Reaches sys ok s) (hok : ok s e)
      (hst : sys.step s e = some t) : Reaches sys ok t

/-- The condition that rules nothing out. -/
def anyStep (_ : σ) (_ : ε) : Prop := True

/-! ## invariants -/

/-- **Invariant rule**: what holds at the start and is preserved by every
permitted step holds of every state reached. -/
theorem Reaches.invariant {sys : Sys σ ε} {ok : σ → ε → Prop} {inv : σ → Prop}
    (h0 : inv sys.start)
    (hstep : ∀ s e t, inv s → ok s e → sys.step s e = some t → inv t)
    {s : σ} (h : Reaches sys ok s) : inv s := by
  induction h with
  | start => exact h0
  | step _ hok hst ih => exact hstep _ _ _ ih hok hst

/-- The invariant rule with facts already known of every state reached. -/
theorem Reaches.invariant_of {sys : Sys σ ε} {ok : σ → ε → Prop} {known inv : σ → Prop}
    (hknown : ∀ s, Reaches sys ok s → known s)
    (h0 : inv sys.start)
    (hstep : ∀ s e t, known s → inv s → ok s e → sys.step s e = some t → inv t)
    {s : σ} (h : Reaches sys ok s) : inv s := by
  induction h with
  | start => exact h0
  | step hs hok hst ih => exact hstep _ _ _ (hknown _ hs) ih hok hst

/-- A run under a stronger condition is a run under a weaker one. -/
theorem Reaches.mono {sys : Sys σ ε} {ok ok' : σ → ε → Prop}
    (himp : ∀ s e, ok s e → ok' s e) {s : σ} (h : Reaches sys ok s) :
    Reaches sys ok' s := by
  induction h with
  | start => exact .start
  | step _ hok hst ih => exact .step ih (himp _ _ hok) hst

/-! ## runs between two states -/

/-- `t` is reached from `s` by steps that all satisfy `ok`. -/
inductive Leads (sys : Sys σ ε) (ok : σ → ε → Prop) (s : σ) : σ → Prop
  | refl : Leads sys ok s s
  | step {t u : σ} {e : ε} (ht : Leads sys ok s t) (hok : ok t e)
      (hst : sys.step t e = some u) : Leads sys ok s u

/-- A run from a state reached is a run from the start. -/
theorem Leads.reaches {sys : Sys σ ε} {ok ok' : σ → ε → Prop}
    (himp : ∀ s e, ok' s e → ok s e) {s t : σ} (hs : Reaches sys ok s)
    (h : Leads sys ok' s t) : Reaches sys ok t := by
  induction h with
  | refl => exact hs
  | step _ hok hst ih => exact .step ih (himp _ _ hok) hst

/-- A run between two states under a stronger condition is one under a weaker. -/
theorem Leads.mono {sys : Sys σ ε} {ok ok' : σ → ε → Prop}
    (himp : ∀ s e, ok s e → ok' s e) {s t : σ} (h : Leads sys ok s t) : Leads sys ok' s t := by
  induction h with
  | refl => exact .refl
  | step _ hok hst ih => exact .step ih (himp _ _ hok) hst

/-- **Stability rule**: a fact that every permitted step from a state reached
preserves is preserved by every run from there. -/
theorem Leads.stable {sys : Sys σ ε} {ok ok' : σ → ε → Prop} (fact : σ → Prop)
    (himp : ∀ s e, ok' s e → ok s e)
    (hstep : ∀ s e t, Reaches sys ok s → fact s → ok' s e → sys.step s e = some t → fact t)
    {s t : σ} (hs : Reaches sys ok s) (h : Leads sys ok' s t) (h0 : fact s) : fact t := by
  induction h with
  | refl => exact h0
  | step ht hok hst ih => exact hstep _ _ _ (ht.reaches himp hs) ih hok hst

/-! ## playing a list of events -/

/-- Play a list of events, checking a Boolean side condition at each. -/
def play (sys : Sys σ ε) (ok : σ → ε → Bool) : σ → List ε → Option σ
  | s, [] => some s
  | s, e :: es =>
      if ok s e then (sys.step s e).bind fun t => play sys ok t es else none

/-- A list that plays through from a state reached ends in a state reached. -/
theorem Reaches.of_play {sys : Sys σ ε} {ok : σ → ε → Prop} {okb : σ → ε → Bool}
    (hok : ∀ s e, okb s e = true → ok s e) {s t : σ} {es : List ε}
    (hs : Reaches sys ok s) (h : play sys okb s es = some t) : Reaches sys ok t := by
  induction es generalizing s with
  | nil =>
      simp only [play, Option.some.injEq] at h
      exact h ▸ hs
  | cons e es ih =>
      simp only [play] at h
      split at h
      · next he =>
          obtain ⟨m, hm, hrest⟩ := Option.bind_eq_some_iff.mp h
          exact ih (.step hs (hok s e he) hm) hrest
      · contradiction

/-- A run given as a list whose steps all pass a Boolean check, together with a
Boolean fact about its last state. -/
theorem Reaches.exists_of_play (sys : Sys σ ε) (okb : σ → ε → Bool) (es : List ε)
    (final : σ → Bool) (h : (play sys okb sys.start es).any final = true) :
    ∃ s, Reaches sys (fun s e => okb s e = true) s ∧ final s = true := by
  cases hplay : play sys okb sys.start es with
  | none => simp [hplay] at h
  | some s => exact ⟨s, .of_play (fun _ _ h => h) .start hplay, by simpa [hplay] using h⟩

/-- A list that plays through is a run between its two ends. -/
theorem Leads.of_play {sys : Sys σ ε} {okb : σ → ε → Bool} {s t u : σ} {es : List ε}
    (hs : Leads sys (fun s e => okb s e = true) s t) (h : play sys okb t es = some u) :
    Leads sys (fun s e => okb s e = true) s u := by
  induction es generalizing t with
  | nil =>
      simp only [play, Option.some.injEq] at h
      exact h ▸ hs
  | cons e es ih =>
      simp only [play] at h
      split at h
      · next he =>
          obtain ⟨m, hm, hrest⟩ := Option.bind_eq_some_iff.mp h
          exact ih (.step hs he hm) hrest
      · contradiction

/-- Two lists played one after the other, each under its own check: a run to a
state, and a run on from there. -/
theorem Leads.exists_of_play (sys : Sys σ ε) (okb okb' : σ → ε → Bool) (es es' : List ε)
    (final : σ → σ → Bool)
    (h : (play sys okb sys.start es).any (fun s =>
      (play sys okb' s es').any fun t => final s t) = true) :
    ∃ s t, Reaches sys (fun s e => okb s e = true) s ∧
      Leads sys (fun s e => okb' s e = true) s t ∧ final s t = true := by
  obtain ⟨s, hs, hfinal⟩ := Reaches.exists_of_play sys okb es
    (fun s => (play sys okb' s es').any fun t => final s t) h
  cases hplay : play sys okb' s es' with
  | none => simp [hplay] at hfinal
  | some t => exact ⟨s, t, hs, .of_play .refl hplay, by simpa [hplay] using hfinal⟩

end Run
