import Mathlib.Data.List.Basic

/-!
# Telemax.Lib.Script

Programs that put questions to the outside, one after the other, and stop with a
result or an error.  `ρ i` is what may come back for the question `i`; nothing
more is assumed of the outside, so a program has as many runs as there are
answers.

* `Runs x tr res` — the questions put and the answers given, in order, and how
  the run ends;
* `wp x Q` — every run of `x` satisfies `Q`, computed along the program; the
  rules `wp_bind` and `wp_tryCatch` follow its text, and `wp_iff` says that it
  speaks of the runs.
-/

universe u

/-- A program over the questions `ι`. -/
inductive Script {ι : Type} (ρ : ι → Type) (ε α : Type)
  | done (a : α)
  | fail (e : ε)
  | ask (i : ι) (k : ρ i → Script ρ ε α)

namespace Script

variable {ι : Type} {ρ : ι → Type} {ε α β : Type}

/-- A question and its answer. -/
abbrev Asked (ρ : ι → Type) := Σ i, ρ i

def bind : Script ρ ε α → (α → Script ρ ε β) → Script ρ ε β
  | done a, f => f a
  | fail e, _ => fail e
  | ask i k, f => ask i fun r => (k r).bind f

/-- `try … except`. -/
def handle : Script ρ ε α → (ε → Script ρ ε α) → Script ρ ε α
  | done a, _ => done a
  | fail e, h => h e
  | ask i k, h => ask i fun r => (k r).handle h

instance : Monad (Script ρ ε) where
  pure := done
  bind := bind

instance : MonadExcept ε (Script ρ ε) where
  throw := fail
  tryCatch := handle

/-- Put a question. -/
def query (i : ι) : Script ρ ε (ρ i) := ask i done

/-- Go on with a result, or fail with the error it carries. -/
def orThrow {ε' : Type} (err : ε' → ε) : Except ε' α → Script ρ ε α
  | .ok a => done a
  | .error e => fail (err e)

/-- `try … finally`. -/
def ensuring (x : Script ρ ε α) (f : Script ρ ε Unit) : Script ρ ε α :=
  ((x.bind fun a => done (Except.ok a)).handle fun e => done (Except.error e)).bind fun r =>
    f.bind fun _ => orThrow id r

/-! ## runs -/

inductive Runs : Script ρ ε α → List (Asked ρ) → Except ε α → Prop
  | done (a : α) : Runs (.done a) [] (.ok a)
  | fail (e : ε) : Runs (.fail e) [] (.error e)
  | ask {i : ι} {k : ρ i → Script ρ ε α} (r : ρ i) {tr : List (Asked ρ)} {res : Except ε α}
      (h : Runs (k r) tr res) : Runs (.ask i k) (⟨i, r⟩ :: tr) res

/-- The run in which the outside answers by what it was asked before. -/
def play (answer : List (Asked ρ) → ∀ i, ρ i) (past : List (Asked ρ)) :
    Script ρ ε α → List (Asked ρ) × Except ε α
  | done a => ([], .ok a)
  | fail e => ([], .error e)
  | ask i k =>
      let asked : Asked ρ := ⟨i, answer past i⟩
      let rest := play answer (past ++ [asked]) (k asked.2)
      (asked :: rest.1, rest.2)

theorem runs_play (answer : List (Asked ρ) → ∀ i, ρ i) (past : List (Asked ρ))
    (x : Script ρ ε α) : Runs x (play answer past x).1 (play answer past x).2 := by
  induction x generalizing past with
  | done a => exact .done a
  | fail e => exact .fail e
  | ask i k ih => exact .ask _ (ih _ _)

/-- What such a run asks is answered so. -/
theorem mem_play {answer : List (Asked ρ) → ∀ i, ρ i} {past : List (Asked ρ)}
    {x : Script ρ ε α} {a : Asked ρ} (h : a ∈ (play answer past x).1) :
    ∃ past, a.2 = answer past a.1 := by
  induction x generalizing past with
  | done _ | fail _ => cases h
  | ask i k ih =>
      rcases List.mem_cons.mp h with rfl | hrest
      · exact ⟨past, rfl⟩
      · exact ih _ hrest

/-- Every run ends in `Q`. -/
def wp : Script ρ ε α → (List (Asked ρ) → Except ε α → Prop) → Prop
  | done a, Q => Q [] (.ok a)
  | fail e, Q => Q [] (.error e)
  | ask i k, Q => ∀ r, (k r).wp fun tr res => Q (⟨i, r⟩ :: tr) res

theorem wp_iff {x : Script ρ ε α} {Q : List (Asked ρ) → Except ε α → Prop} :
    x.wp Q ↔ ∀ tr res, Runs x tr res → Q tr res := by
  induction x generalizing Q with
  | done a => exact ⟨fun h tr res hr => by cases hr; exact h, fun h => h _ _ (.done a)⟩
  | fail e => exact ⟨fun h tr res hr => by cases hr; exact h, fun h => h _ _ (.fail e)⟩
  | ask i k ih =>
      constructor
      · intro h tr res hr
        cases hr with
        | ask r hr => exact (ih r).mp (h r) _ _ hr
      · exact fun h r => (ih r).mpr fun tr res hr => h _ _ (.ask r hr)

/-- What every run satisfies, each run does. -/
theorem Runs.of_wp {x : Script ρ ε α} {Q : List (Asked ρ) → Except ε α → Prop} (h : x.wp Q)
    {tr : List (Asked ρ)} {res : Except ε α} (hr : Runs x tr res) : Q tr res :=
  wp_iff.mp h tr res hr

/-! ## rules -/

variable {Q Q' : List (Asked ρ) → Except ε α → Prop}

theorem wp_mono (himp : ∀ tr res, Q tr res → Q' tr res) {x : Script ρ ε α} (h : x.wp Q) :
    x.wp Q' :=
  wp_iff.mpr fun tr res hr => himp tr res (wp_iff.mp h tr res hr)

@[simp] theorem wp_pure (a : α) : (pure a : Script ρ ε α).wp Q ↔ Q [] (.ok a) := .rfl

@[simp] theorem wp_throw (e : ε) : (throw e : Script ρ ε α).wp Q ↔ Q [] (.error e) := .rfl

@[simp] theorem wp_query (i : ι) {Q : List (Asked ρ) → Except ε (ρ i) → Prop} :
    (query i : Script ρ ε (ρ i)).wp Q ↔ ∀ r, Q [⟨i, r⟩] (.ok r) := .rfl

/-- One part after the other: an error ends the run, a result goes on. -/
theorem wp_bind (x : Script ρ ε α) (f : α → Script ρ ε β)
    {Q : List (Asked ρ) → Except ε β → Prop} :
    (x >>= f).wp Q ↔ x.wp fun tr res =>
      match res with
      | .ok a => (f a).wp fun tr' res' => Q (tr ++ tr') res'
      | .error e => Q tr (.error e) := by
  change (x.bind f).wp Q ↔ _
  induction x generalizing Q with
  | done a => exact .rfl
  | fail e => exact .rfl
  | ask i k ih => exact forall_congr' fun r => ih r

theorem wp_map (x : Script ρ ε α) (f : α → β) {Q : List (Asked ρ) → Except ε β → Prop} :
    (f <$> x).wp Q ↔ x.wp fun tr res => Q tr (res.map f) := by
  change (x >>= fun a => pure (f a)).wp Q ↔ _
  rw [wp_bind]
  refine iff_of_eq (congrArg _ (funext fun tr => funext fun res => ?_))
  cases res with
  | ok a => simp [Except.map]
  | error e => rfl

/-- A handled error goes on, and a result is left alone. -/
theorem wp_tryCatch (x : Script ρ ε α) (h : ε → Script ρ ε α) :
    (tryCatch x h).wp Q ↔ x.wp fun tr res =>
      match res with
      | .ok a => Q tr (.ok a)
      | .error e => (h e).wp fun tr' res' => Q (tr ++ tr') res' := by
  change (x.handle h).wp Q ↔ _
  induction x generalizing Q with
  | done a => exact .rfl
  | fail e => exact .rfl
  | ask i k ih => exact forall_congr' fun r => ih r

/-- Where the parts are known by what they satisfy. -/
theorem wp_bind_of {x : Script ρ ε α} {f : α → Script ρ ε β}
    {P : List (Asked ρ) → Except ε α → Prop} {Q : List (Asked ρ) → Except ε β → Prop}
    (hx : x.wp P) (hfail : ∀ tr e, P tr (.error e) → Q tr (.error e))
    (hf : ∀ tr a, P tr (.ok a) → (f a).wp fun tr' res' => Q (tr ++ tr') res') :
    (x >>= f).wp Q := by
  refine (wp_bind x f).mpr (wp_mono (fun tr res h => ?_) hx)
  cases res with
  | ok a => exact hf tr a h
  | error e => exact hfail tr e h

theorem wp_tryCatch_of {x : Script ρ ε α} {h : ε → Script ρ ε α}
    {P : List (Asked ρ) → Except ε α → Prop} (hx : x.wp P)
    (hok : ∀ tr a, P tr (.ok a) → Q tr (.ok a))
    (hh : ∀ tr e, P tr (.error e) → (h e).wp fun tr' res' => Q (tr ++ tr') res') :
    (tryCatch x h).wp Q := by
  refine (wp_tryCatch x h).mpr (wp_mono (fun tr res hp => ?_) hx)
  cases res with
  | ok a => exact hok tr a hp
  | error e => exact hh tr e hp

end Script
