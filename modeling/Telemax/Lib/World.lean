import Telemax.Lib.Script

/-!
# Telemax.Lib.World

Programs over something that outlives them: a disk, a database.  A `World` says
what is answered and what is left behind; the program may be stopped between any
two of its questions, and whatever stands then is what the next one finds.

* `Plays` — the runs of a program to its end, with what was asked and answered;
* `Survives` — computed along the program: at every point where it may be stopped
  the world is in `C`, and where it ends in `Q`;
* `Survives.bind`, `Survives.tryCatch` — the rules along its text, `Survives.ends` where it ends;
* `Halts` — where a program may have been stopped, and `Survives.halts`.
-/

namespace Script

/-- What outlives a program: its answers, which may draw on chance, and how it changes. -/
structure World {ι : Type} (ρ : ι → Type) (σ χ : Type) where
  answer : σ → χ → (i : ι) → ρ i
  next : σ → χ → ι → σ
  /-- What is assumed of it when a question is put. -/
  fits : σ → ι → Prop

variable {ι : Type} {ρ : ι → Type} {ε α β σ χ : Type}

/-- Wherever `x` is stopped the world is in `C`, and where it ends, in `Q`. -/
def Survives (w : World ρ σ χ) (C : σ → Prop) : σ → Script ρ ε α →
    (σ → Except ε α → Prop) → Prop
  | s, done a, Q => C s ∧ Q s (.ok a)
  | s, fail e, Q => C s ∧ Q s (.error e)
  | s, ask i k, Q => C s ∧ (w.fits s i → ∀ c, Survives w C (w.next s c i) (k (w.answer s c i)) Q)

variable {w : World ρ σ χ} {C : σ → Prop} {s : σ}

@[simp] theorem survives_pure (a : α) {Q : σ → Except ε α → Prop} :
    Survives w C s (pure a : Script ρ ε α) Q ↔ C s ∧ Q s (.ok a) := .rfl

@[simp] theorem survives_throw (e : ε) {Q : σ → Except ε α → Prop} :
    Survives w C s (throw e : Script ρ ε α) Q ↔ C s ∧ Q s (.error e) := .rfl

@[simp] theorem survives_query (i : ι) {Q : σ → Except ε (ρ i) → Prop} :
    Survives w C s (query i : Script ρ ε (ρ i)) Q ↔
      C s ∧ (w.fits s i → ∀ c, C (w.next s c i) ∧ Q (w.next s c i) (.ok (w.answer s c i))) := .rfl

/-- It may be stopped before it has begun. -/
theorem Survives.now {x : Script ρ ε α} {Q : σ → Except ε α → Prop}
    (h : Survives w C s x Q) : C s := by
  cases x with
  | done a | fail e | ask i k => exact h.1

theorem Survives.mono {x : Script ρ ε α} {Q Q' : σ → Except ε α → Prop}
    (h : Survives w C s x Q) (himp : ∀ s res, C s → Q s res → Q' s res) :
    Survives w C s x Q' := by
  induction x generalizing s with
  | done a | fail e => exact ⟨h.1, himp _ _ h.1 h.2⟩
  | ask i k ih => exact ⟨h.1, fun hfits c => ih _ (h.2 hfits c)⟩

/-- Less may be asked of the points where a program is stopped; where it ends, more is known. -/
theorem Survives.weaken {C' : σ → Prop} {x : Script ρ ε α} {Q : σ → Except ε α → Prop}
    (h : Survives w C s x Q) (himp : ∀ s, C s → C' s) :
    Survives w C' s x fun s res => C s ∧ Q s res := by
  induction x generalizing s with
  | done a | fail e => exact ⟨himp _ h.1, h⟩
  | ask i k ih => exact ⟨himp _ h.1, fun hfits c => ih _ (h.2 hfits c)⟩

/-- One part after the other. -/
theorem Survives.bind {x : Script ρ ε α} {f : α → Script ρ ε β} {P : σ → Except ε α → Prop}
    {Q : σ → Except ε β → Prop} (hx : Survives w C s x P)
    (hfail : ∀ s e, C s → P s (.error e) → Q s (.error e))
    (hf : ∀ s a, C s → P s (.ok a) → Survives w C s (f a) Q) : Survives w C s (x >>= f) Q := by
  change Survives w C s (x.bind f) Q
  induction x generalizing s with
  | done a => exact hf s a hx.1 hx.2
  | fail e => exact ⟨hx.1, hfail s e hx.1 hx.2⟩
  | ask i k ih => exact ⟨hx.1, fun hfits c => ih _ (hx.2 hfits c)⟩

/-- A handled error goes on, and a result is left alone. -/
theorem Survives.tryCatch {x : Script ρ ε α} {h : ε → Script ρ ε α}
    {P Q : σ → Except ε α → Prop} (hx : Survives w C s x P)
    (hok : ∀ s a, C s → P s (.ok a) → Q s (.ok a))
    (hh : ∀ s e, C s → P s (.error e) → Survives w C s (h e) Q) :
    Survives w C s (MonadExcept.tryCatch x h) Q := by
  change Survives w C s (x.handle h) Q
  induction x generalizing s with
  | done a => exact ⟨hx.1, hok s a hx.1 hx.2⟩
  | fail e => exact hh s e hx.1 hx.2
  | ask i k ih => exact ⟨hx.1, fun hfits c => ih _ (hx.2 hfits c)⟩

/-- What is done at the end is done with or without a result. -/
theorem Survives.ensuring {x : Script ρ ε α} {f : Script ρ ε Unit} {P Q : σ → Except ε α → Prop}
    (hx : Survives w C s x P)
    (hf : ∀ s r, C s → P s r → Survives w C s f fun t fr =>
      match fr with
      | .ok _ => Q t r
      | .error e => Q t (.error e)) : Survives w C s (Script.ensuring x f) Q := by
  have hcaught : Survives w C s (MonadExcept.tryCatch
      (x >>= fun a => Pure.pure (Except.ok a : Except ε α)) fun e => Pure.pure (.error e))
      fun s res => ∃ r, res = .ok r ∧ P s r :=
    Survives.tryCatch (P := fun s res =>
        (∀ r, res = .ok r → P s r) ∧ ∀ e, res = .error e → P s (.error e))
      (hx.bind (fun _ _ _ h => ⟨nofun, fun _ he => Except.error.inj he ▸ h⟩)
        fun _ _ hC h => ⟨hC, fun _ hr => Except.ok.inj hr ▸ h, nofun⟩)
      (fun _ r _ h => ⟨r, rfl, h.1 r rfl⟩) fun _ e hC h => ⟨hC, _, rfl, h.2 e rfl⟩
  refine hcaught.bind (fun _ _ _ h => ?_) fun s r hC h => ?_
  · obtain ⟨_, hr, -⟩ := h
    cases hr
  · obtain ⟨_, hr, hP⟩ := h
    obtain rfl := Except.ok.inj hr
    refine (hf s r hC hP).bind (fun _ _ _ hQ => hQ) fun t _ hC hQ => ?_
    cases r with
    | ok a => exact ⟨hC, hQ⟩
    | error e => exact ⟨hC, hQ⟩

/-! ## runs -/

/-- `x`, started in `s`, runs to its end: what was asked and answered, the result, and the
world it leaves. -/
inductive Plays (w : World ρ σ χ) : σ → Script ρ ε α → List (Asked ρ) → Except ε α → σ → Prop
  | done (s : σ) (a : α) : Plays w s (.done a) [] (.ok a) s
  | fail (s : σ) (e : ε) : Plays w s (.fail e) [] (.error e) s
  | ask {s t : σ} {i : ι} {k : ρ i → Script ρ ε α} {tr : List (Asked ρ)} {res : Except ε α}
      (c : χ) (hfits : w.fits s i) (h : Plays w (w.next s c i) (k (w.answer s c i)) tr res t) :
      Plays w s (.ask i k) (⟨i, w.answer s c i⟩ :: tr) res t

/-- The run on which chance always comes out as `c`. -/
def World.run (w : World ρ σ χ) (c : χ) :
    σ → Script ρ ε α → List (Asked ρ) × Except ε α × σ
  | s, .done a => ([], .ok a, s)
  | s, .fail e => ([], .error e, s)
  | s, .ask i k =>
      let rest := w.run c (w.next s c i) (k (w.answer s c i))
      (⟨i, w.answer s c i⟩ :: rest.1, rest.2)

theorem World.plays_run (hfits : ∀ s i, w.fits s i) (c : χ) (s : σ) (x : Script ρ ε α) :
    Plays w s x (w.run c s x).1 (w.run c s x).2.1 (w.run c s x).2.2 := by
  induction x generalizing s with
  | done a => exact .done s a
  | fail e => exact .fail s e
  | ask i k ih => exact .ask c (hfits s i) (ih _ _)

/-- A run of two parts on which chance always comes out the same. -/
theorem World.run_bind (w : World ρ σ χ) (c : χ) (s : σ) (x : Script ρ ε α)
    (f : α → Script ρ ε β) {a : α} (h : (w.run c s x).2.1 = .ok a) :
    (w.run c s (x >>= f)).2 = (w.run c (w.run c s x).2.2 (f a)).2 := by
  change (w.run c s (x.bind f)).2 = _
  induction x generalizing s with
  | done b =>
      obtain rfl := Except.ok.inj h
      rfl
  | fail e => cases h
  | ask i k ih => exact ih _ _ h

variable {t : σ} {tr : List (Asked ρ)}

/-- Where a run of a program that survives ends. -/
theorem Survives.ends {x : Script ρ ε α} {Q : σ → Except ε α → Prop} {res : Except ε α}
    (h : Survives w C s x Q) (hp : Plays w s x tr res t) : C t ∧ Q t res := by
  induction hp with
  | done s a | fail s e => exact h
  | ask c hfits _ ih => exact ih (h.2 hfits c)

/-- `x`, started in `s`, is stopped in `t`: before it has begun, or after some of its
questions. -/
inductive Halts (w : World ρ σ χ) : σ → Script ρ ε α → σ → Prop
  | here (s : σ) (x : Script ρ ε α) : Halts w s x s
  | ask {s t : σ} {i : ι} {k : ρ i → Script ρ ε α} (c : χ) (hfits : w.fits s i)
      (h : Halts w (w.next s c i) (k (w.answer s c i)) t) : Halts w s (.ask i k) t

/-- Where a program that survives is stopped. -/
theorem Survives.halts {x : Script ρ ε α} {Q : σ → Except ε α → Prop}
    (h : Survives w C s x Q) (hp : Halts w s x t) : C t := by
  induction hp with
  | here s x => exact h.now
  | ask c hfits _ ih => exact ih (h.2 hfits c)

theorem Plays.bind {x : Script ρ ε α} {f : α → Script ρ ε β} {u : σ} {a : α}
    {tr' : List (Asked ρ)} {res : Except ε β} (hx : Plays w s x tr (.ok a) u)
    (hf : Plays w u (f a) tr' res t) : Plays w s (x >>= f) (tr ++ tr') res t := by
  change Plays w s (x.bind f) (tr ++ tr') res t
  generalize hres : Except.ok a = r at hx
  induction hx with
  | done s b =>
      obtain rfl := Except.ok.inj hres
      exact hf
  | fail s e => cases hres
  | ask c hfits _ ih => exact .ask c hfits (ih hf hres)

/-- A run of two parts is a run of the first, and of the second unless the first failed. -/
theorem Plays.of_bind {x : Script ρ ε α} {f : α → Script ρ ε β} {res : Except ε β}
    (h : Plays w s (x >>= f) tr res t) :
    (∃ a u tr₁ tr₂, Plays w s x tr₁ (.ok a) u ∧ Plays w u (f a) tr₂ res t ∧ tr = tr₁ ++ tr₂) ∨
      ∃ e, Plays w s x tr (.error e) t ∧ res = .error e := by
  change Plays w s (x.bind f) tr res t at h
  induction x generalizing s tr with
  | done a => exact .inl ⟨a, s, [], tr, .done s a, h, rfl⟩
  | fail e =>
      cases h
      exact .inr ⟨e, .fail _ e, rfl⟩
  | ask i k ih =>
      cases h with
      | ask c hfits h =>
          rcases ih _ h with ⟨a, u, tr₁, tr₂, hx, hf, rfl⟩ | ⟨e, hx, hres⟩
          · exact .inl ⟨a, u, _, tr₂, .ask c hfits hx, hf, rfl⟩
          · exact .inr ⟨e, .ask c hfits hx, hres⟩

end Script
