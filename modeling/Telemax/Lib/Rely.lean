import Telemax.Lib.World

/-!
# Telemax.Lib.Rely

Programs over a world that others change too, between any two of their
questions: `R s t` says that what stood as `s` may be found as `t`.

* `Withstands` — computed along the program: at every point where it may be
  stopped the world is in `C`, whatever the others have done to it, and where it
  ends in `Q`;
* `Withstands.changed` — the others change the world while the program stands still;
* `Withstands.step` — one question of it;
* `Withstands.mono` — what is less is withstood, too;
* `Withstands.bind`, `Withstands.tryCatch` — the rules along its text.
-/

namespace Script

variable {ι : Type} {ρ : ι → Type} {ε α β σ χ : Type}

/-- Wherever `x` is stopped the world is in `C`, and where it ends, in `Q`, though others change
the world by `R` before each of its questions. -/
def Withstands (w : World ρ σ χ) (R : σ → σ → Prop) (C : σ → Prop) : σ → Script ρ ε α →
    (σ → Except ε α → Prop) → Prop
  | s, done a, Q => C s ∧ Q s (.ok a)
  | s, fail e, Q => C s ∧ Q s (.error e)
  | s, ask i k, Q => ∀ t, R s t → C t ∧
      (w.fits t i → ∀ c, Withstands w R C (w.next t c i) (k (w.answer t c i)) Q)

variable {w : World ρ σ χ} {R : σ → σ → Prop} {C : σ → Prop} {s : σ}

/-- It may be stopped before it has begun. -/
theorem Withstands.now {x : Script ρ ε α} {Q : σ → Except ε α → Prop}
    (h : Withstands w R C s x Q) (hrefl : ∀ s, R s s) : C s := by
  cases x with
  | done a | fail e => exact h.1
  | ask i k => exact (h s (hrefl s)).1

/-- The others change the world; the program has a question still to put. -/
theorem Withstands.changed {i : ι} {k : ρ i → Script ρ ε α} {Q : σ → Except ε α → Prop}
    (h : Withstands w R C s (.ask i k) Q) (htrans : ∀ {s t u}, R s t → R t u → R s u) {t : σ}
    (hst : R s t) : Withstands w R C t (.ask i k) Q :=
  fun u htu => h u (htrans hst htu)

/-- It puts its question. -/
theorem Withstands.step {i : ι} {k : ρ i → Script ρ ε α} {Q : σ → Except ε α → Prop}
    (h : Withstands w R C s (.ask i k) Q) (hrefl : ∀ s, R s s) (hfits : w.fits s i) (c : χ) :
    Withstands w R C (w.next s c i) (k (w.answer s c i)) Q :=
  (h s (hrefl s)).2 hfits c

/-- What is less is withstood, too. -/
theorem Withstands.mono {D : σ → Prop} {x : Script ρ ε α} {P Q : σ → Except ε α → Prop}
    (hx : Withstands w R C s x P) (hCD : ∀ s, C s → D s) (hPQ : ∀ s r, C s → P s r → Q s r) :
    Withstands w R D s x Q := by
  induction x generalizing s with
  | done a => exact ⟨hCD s hx.1, hPQ s _ hx.1 hx.2⟩
  | fail e => exact ⟨hCD s hx.1, hPQ s _ hx.1 hx.2⟩
  | ask i k ih =>
      exact fun t hst => ⟨hCD t (hx t hst).1, fun hfits c => ih _ ((hx t hst).2 hfits c)⟩

/-- One part after the other. -/
theorem Withstands.bind {x : Script ρ ε α} {f : α → Script ρ ε β} {P : σ → Except ε α → Prop}
    {Q : σ → Except ε β → Prop} (hx : Withstands w R C s x P)
    (hfail : ∀ s e, C s → P s (.error e) → Q s (.error e))
    (hf : ∀ s a, C s → P s (.ok a) → Withstands w R C s (f a) Q) :
    Withstands w R C s (x >>= f) Q := by
  change Withstands w R C s (x.bind f) Q
  induction x generalizing s with
  | done a => exact hf s a hx.1 hx.2
  | fail e => exact ⟨hx.1, hfail s e hx.1 hx.2⟩
  | ask i k ih => exact fun t hst => ⟨(hx t hst).1, fun hfits c => ih _ ((hx t hst).2 hfits c)⟩

/-- A handled error goes on, and a result is left alone. -/
theorem Withstands.tryCatch {x : Script ρ ε α} {h : ε → Script ρ ε α}
    {P Q : σ → Except ε α → Prop} (hx : Withstands w R C s x P)
    (hok : ∀ s a, C s → P s (.ok a) → Q s (.ok a))
    (hh : ∀ s e, C s → P s (.error e) → Withstands w R C s (h e) Q) :
    Withstands w R C s (MonadExcept.tryCatch x h) Q := by
  change Withstands w R C s (x.handle h) Q
  induction x generalizing s with
  | done a => exact ⟨hx.1, hok s a hx.1 hx.2⟩
  | fail e => exact hh s e hx.1 hx.2
  | ask i k ih => exact fun t hst => ⟨(hx t hst).1, fun hfits c => ih _ ((hx t hst).2 hfits c)⟩

end Script
