import Mathlib.Data.List.DropRight

/-!
# Telemax.Lib.Trim

Taking the blank ends off a list, for any notion of blank.  `trim p l` is the part
of `l` between its first and its last letter that is not blank.
-/

namespace Trim

variable {α : Type} {p : α → Bool} {l : List α}

def trim (p : α → Bool) (l : List α) : List α :=
  ((l.dropWhile p).reverse.dropWhile p).reverse

/-- Neither end is blank. -/
def Tight (p : α → Bool) (l : List α) : Prop :=
  (∀ x ∈ l.head?, p x = false) ∧ ∀ x ∈ l.getLast?, p x = false

theorem tight_iff :
    Tight p l ↔ (l.head?.all fun x => !p x) = true ∧ (l.getLast?.all fun x => !p x) = true := by
  cases hhead : l.head? <;> cases hlast : l.getLast? <;> simp [Tight, hhead, hlast]

instance : Decidable (Tight p l) := decidable_of_iff _ tight_iff.symm

theorem dropWhile_of_head (h : ∀ x ∈ l.head?, p x = false) : l.dropWhile p = l := by
  cases l with
  | nil => rfl
  | cons x l => rw [List.dropWhile_cons_of_neg (by simpa using h x rfl)]

theorem trim_of_tight (h : Tight p l) : trim p l = l := by
  rw [trim, dropWhile_of_head h.1, dropWhile_of_head (by simpa using h.2), List.reverse_reverse]

theorem head_dropWhile (p : α → Bool) (l : List α) : ∀ x ∈ (l.dropWhile p).head?, p x = false := by
  intro x hx
  have h := List.head?_dropWhile_not p l
  rw [Option.mem_def.mp hx] at h
  simpa using h

theorem tight_trim (p : α → Bool) (l : List α) : Tight p (trim p l) := by
  constructor
  · intro x hx
    have hbegin : trim p l <+: l.dropWhile p := by
      rw [trim, ← List.reverse_suffix, List.reverse_reverse]
      exact List.dropWhile_suffix p
    obtain ⟨rest, hrest⟩ := hbegin
    refine head_dropWhile p l x ?_
    rw [← hrest, List.head?_append, Option.mem_def.mp hx]
    rfl
  · intro x hx
    rw [trim, List.getLast?_reverse] at hx
    exact head_dropWhile p _ x hx

/-- The first letter that is not blank stays. -/
theorem head_trim (p : α → Bool) (l : List α) : (trim p l).head? = (l.dropWhile p).head? := by
  cases hdrop : l.dropWhile p with
  | nil => simp [trim, hdrop]
  | cons x rest =>
    have hx : p x = false := head_dropWhile p l x (by rw [hdrop]; rfl)
    have hne : (x :: rest).rdropWhile p ≠ [] := fun hnil => by
      have hall := List.rdropWhile_eq_nil_iff.mp hnil x List.mem_cons_self
      rw [hx] at hall
      cases hall
    obtain ⟨tail, htail⟩ := List.rdropWhile_prefix p (x :: rest)
    have htrim : trim p l = (x :: rest).rdropWhile p := by rw [trim, hdrop, List.rdropWhile]
    rw [htrim]
    obtain ⟨y, kept, hkept⟩ := List.exists_cons_of_ne_nil hne
    rw [hkept, List.cons_append] at htail
    rw [hkept, (List.cons.inj htail).1]
    rfl

theorem trim_trim (p : α → Bool) (l : List α) : trim p (trim p l) = trim p l :=
  trim_of_tight (tight_trim p l)

/-! ## letters that are not blank -/

section
variable {q : α → Bool}

theorem filter_dropWhile (h : ∀ x, q x = true → p x = false) (l : List α) :
    (l.dropWhile p).filter q = l.filter q := by
  induction l with
  | nil => rfl
  | cons x l ih =>
    rw [List.dropWhile_cons]
    split
    · rename_i hx
      have hq : ¬ q x = true := fun hq => by simp [h x hq] at hx
      rw [ih, List.filter_cons_of_neg hq]
    · rfl

theorem filter_rdropWhile (h : ∀ x, q x = true → p x = false) (l : List α) :
    (l.rdropWhile p).filter q = l.filter q := by
  rw [List.rdropWhile, List.filter_reverse, filter_dropWhile h, List.filter_reverse,
    List.reverse_reverse]

/-- Trimming keeps every letter that is not blank. -/
theorem filter_trim (h : ∀ x, q x = true → p x = false) (l : List α) :
    (trim p l).filter q = l.filter q := by
  rw [trim, List.filter_reverse, filter_dropWhile h, List.filter_reverse, List.reverse_reverse,
    filter_dropWhile h]

end

end Trim
