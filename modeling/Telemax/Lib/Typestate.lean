import Telemax.Lib.Script

/-!
# Telemax.Lib.Typestate

Programs whose questions are allowed or not according to what was asked and
answered before: a lock is given back by who took it, a result is written once.
A `Protocol` says which question is allowed in which state and where an answer
leads; `Obeys` computes along the program that it only puts questions that are
allowed, whatever is answered, and in which states it ends.

* `obeys_ask` — what one step of a program that obeys may do, and what is left;
* `Obeys.bind`, `Obeys.tryCatch` — the rules along the text of a program;
* `Obeys.runs` — what a run of a program that obeys ends in;
* `Carries` — a part after which a property of the state still holds.
-/

namespace Script

variable {ι : Type} {ρ : ι → Type} {ε α β : Type} {σ : Type}

/-- Which questions are allowed, and where their answers lead. -/
structure Protocol {ι : Type} (ρ : ι → Type) (σ : Type) where
  allowed : σ → ι → Prop
  next : σ → (i : ι) → ρ i → σ

/-- Every question is allowed where it is put, and every run ends in `Q`. -/
def Obeys (pr : Protocol ρ σ) : σ → Script ρ ε α → (σ → Except ε α → Prop) → Prop
  | s, done a, Q => Q s (.ok a)
  | s, fail e, Q => Q s (.error e)
  | s, ask i k, Q => pr.allowed s i ∧ ∀ r, Obeys pr (pr.next s i r) (k r) Q

variable {pr : Protocol ρ σ} {s : σ}

/-- One step of a program that obeys. -/
theorem obeys_ask {i : ι} {k : ρ i → Script ρ ε α} {Q : σ → Except ε α → Prop} :
    Obeys pr s (.ask i k) Q ↔
      pr.allowed s i ∧ ∀ r, Obeys pr (pr.next s i r) (k r) Q := .rfl

@[simp] theorem obeys_pure (a : α) {Q : σ → Except ε α → Prop} :
    Obeys pr s (pure a : Script ρ ε α) Q ↔ Q s (.ok a) := .rfl

@[simp] theorem obeys_throw (e : ε) {Q : σ → Except ε α → Prop} :
    Obeys pr s (throw e : Script ρ ε α) Q ↔ Q s (.error e) := .rfl

@[simp] theorem obeys_query (i : ι) {Q : σ → Except ε (ρ i) → Prop} :
    Obeys pr s (query i : Script ρ ε (ρ i)) Q ↔
      pr.allowed s i ∧ ∀ r, Q (pr.next s i r) (.ok r) := .rfl

theorem Obeys.mono {x : Script ρ ε α} {Q Q' : σ → Except ε α → Prop}
    (h : Obeys pr s x Q) (himp : ∀ s res, Q s res → Q' s res) : Obeys pr s x Q' := by
  induction x generalizing s with
  | done a => exact himp _ _ h
  | fail e => exact himp _ _ h
  | ask i k ih => exact ⟨h.1, fun r => ih r (h.2 r)⟩

/-- One part after the other. -/
theorem Obeys.bind {x : Script ρ ε α} {f : α → Script ρ ε β} {P : σ → Except ε α → Prop}
    {Q : σ → Except ε β → Prop} (hx : Obeys pr s x P)
    (hfail : ∀ s e, P s (.error e) → Q s (.error e))
    (hf : ∀ s a, P s (.ok a) → Obeys pr s (f a) Q) : Obeys pr s (x >>= f) Q := by
  change Obeys pr s (x.bind f) Q
  induction x generalizing s with
  | done a => exact hf s a hx
  | fail e => exact hfail s e hx
  | ask i k ih => exact ⟨hx.1, fun r => ih r (hx.2 r)⟩

/-- A handled error goes on, and a result is left alone. -/
theorem Obeys.tryCatch {x : Script ρ ε α} {h : ε → Script ρ ε α} {P Q : σ → Except ε α → Prop}
    (hx : Obeys pr s x P) (hok : ∀ s a, P s (.ok a) → Q s (.ok a))
    (hh : ∀ s e, P s (.error e) → Obeys pr s (h e) Q) :
    Obeys pr s (MonadExcept.tryCatch x h) Q := by
  change Obeys pr s (x.handle h) Q
  induction x generalizing s with
  | done a => exact hok s a hx
  | fail e => exact hh s e hx
  | ask i k ih => exact ⟨hx.1, fun r => ih r (hx.2 r)⟩

/-- Where a run leads. -/
def Protocol.after (pr : Protocol ρ σ) (s : σ) (tr : List (Asked ρ)) : σ :=
  tr.foldl (fun s x => pr.next s x.1 x.2) s

/-- A run of a program that obeys ends as it should. -/
theorem Obeys.runs {x : Script ρ ε α} {Q : σ → Except ε α → Prop} (h : Obeys pr s x Q)
    {tr : List (Asked ρ)} {res : Except ε α} (hr : Runs x tr res) : Q (pr.after s tr) res := by
  induction hr generalizing s with
  | done a => exact h
  | fail e => exact h
  | ask r _ ih => exact ih (h.2 r)

/-! ## parts that keep a property -/

/-- From every state in `I`, `x` is allowed and ends in `J`, with or without a result. -/
def Carries (pr : Protocol ρ σ) (I : σ → Prop) (x : Script ρ ε α) (J : σ → Prop) : Prop :=
  ∀ s, I s → Obeys pr s x fun s _ => J s

variable {I J K : σ → Prop}

theorem Carries.pure (a : α) (h : ∀ s, I s → J s) :
    Carries pr I (Pure.pure a : Script ρ ε α) J := h

theorem Carries.throw (e : ε) (h : ∀ s, I s → J s) :
    Carries pr I (MonadExcept.throw e : Script ρ ε α) J := h

theorem Carries.query (i : ι) (hallowed : ∀ s, I s → pr.allowed s i)
    (hnext : ∀ s, I s → ∀ r, J (pr.next s i r)) :
    Carries pr I (Script.query i : Script ρ ε (ρ i)) J :=
  fun s hs => ⟨hallowed s hs, hnext s hs⟩

/-- The first part may stop where it is, so what it keeps must do for the end. -/
theorem Carries.bind {x : Script ρ ε α} {f : α → Script ρ ε β} (hx : Carries pr I x J)
    (hJ : ∀ s, J s → K s) (hf : ∀ a, Carries pr J (f a) K) : Carries pr I (x >>= f) K :=
  fun s hs => (hx s hs).bind (fun s _ h => hJ s h) fun s a h => hf a s h

theorem Carries.tryCatch {x : Script ρ ε α} {h : ε → Script ρ ε α} (hx : Carries pr I x J)
    (hJ : ∀ s, J s → K s) (hh : ∀ e, Carries pr J (h e) K) :
    Carries pr I (MonadExcept.tryCatch x h) K :=
  fun s hs => (hx s hs).tryCatch (fun s _ h => hJ s h) fun s e h => hh e s h

/-- What is done at the end is done with or without a result. -/
theorem Carries.ensuring {x : Script ρ ε α} {f : Script ρ ε Unit} (hx : Carries pr I x J)
    (hf : Carries pr J f K) : Carries pr I (Script.ensuring x f) K := by
  intro s hs
  have hcaught : Obeys pr s (MonadExcept.tryCatch
      (x >>= fun a => Pure.pure (Except.ok a : Except ε α)) fun e => Pure.pure (.error e))
      fun s res => (∃ r, res = .ok r) ∧ J s :=
    Obeys.tryCatch (P := fun s _ => J s)
      ((hx s hs).bind (fun _ _ h => h) fun _ _ h => h)
      (fun _ a h => ⟨⟨a, rfl⟩, h⟩) fun _ e h => ⟨⟨.error e, rfl⟩, h⟩
  refine Obeys.bind hcaught (fun _ _ h => absurd h.1 nofun) fun s r h => ?_
  refine Obeys.bind (hf s h.2) (fun _ _ hK => hK) fun s _ hK => ?_
  cases r with
  | ok a => exact hK
  | error e => exact hK

theorem Carries.orThrow {ε' : Type} (err : ε' → ε) (r : Except ε' α) (h : ∀ s, I s → J s) :
    Carries pr I (Script.orThrow err r : Script ρ ε α) J := by
  cases r with
  | ok a => exact h
  | error e => exact h

theorem Carries.weaken {x : Script ρ ε α} (hx : Carries pr I x J) (h : ∀ s, J s → K s) :
    Carries pr I x K :=
  fun s hs => (hx s hs).mono fun s _ => h s

end Script
