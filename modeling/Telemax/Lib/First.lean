import Mathlib.Data.List.Basic

/-!
# Telemax.Lib.First

A list around the first of its elements that `p` holds of, and a list taken apart at
every such element.  A place in a list is what stands before it and what stands from
there on; two places are the same when as many elements of one kind stand before each
and an element of that kind stands right there (`before_eq_of_filter_eq`).
-/

namespace First

variable {α : Type} {p : α → Bool}

/-- An element of a list, where it stands. -/
structure At (α : Type) where
  before : List α
  found : α
  after : List α
  deriving DecidableEq, Repr

/-- The first element that `p` holds of. -/
def first (p : α → Bool) : List α → Option (At α)
  | [] => none
  | x :: rest =>
      if p x then some ⟨[], x, rest⟩
      else (first p rest).map fun hit => { hit with before := x :: hit.before }

theorem first_eq_some_iff {l : List α} {hit : At α} :
    first p l = some hit ↔
      l = hit.before ++ hit.found :: hit.after ∧ p hit.found = true ∧ ∀ x ∈ hit.before, p x = false := by
  induction l generalizing hit with
  | nil => simp [first]
  | cons x rest ih =>
    obtain ⟨before, found, after⟩ := hit
    rw [first]
    split
    · rename_i hx
      constructor
      · rintro ⟨⟩
        exact ⟨rfl, hx, fun y hy => absurd hy List.not_mem_nil⟩
      · rintro ⟨hl, hfound, hbefore⟩
        cases before with
        | nil =>
          obtain ⟨rfl, rfl⟩ := List.cons.inj hl
          rfl
        | cons y before =>
          obtain ⟨rfl, -⟩ := List.cons.inj hl
          rw [hbefore x List.mem_cons_self] at hx
          cases hx
    · rename_i hx
      constructor
      · intro h
        obtain ⟨hit, hhit, heq⟩ := Option.map_eq_some_iff.mp h
        cases heq
        obtain ⟨hrest, hfound, hbefore⟩ := ih.mp hhit
        refine ⟨congrArg (x :: ·) hrest, hfound, fun y hy => ?_⟩
        rcases List.mem_cons.mp hy with rfl | hy
        · simpa using hx
        · exact hbefore y hy
      · rintro ⟨hl, hfound, hbefore⟩
        cases before with
        | nil =>
          obtain ⟨rfl, -⟩ := List.cons.inj hl
          exact absurd hfound hx
        | cons y before =>
          obtain ⟨rfl, hrest⟩ := List.cons.inj hl
          refine Option.map_eq_some_iff.mpr ⟨⟨before, found, after⟩, ih.mpr ⟨hrest, hfound, ?_⟩, rfl⟩
          exact fun z hz => hbefore z (List.mem_cons_of_mem _ hz)

/-! ## parts -/

/-- What stands before the first element that `p` holds of, and a part from each of them
to the next one. -/
def parts (p : α → Bool) : List α → List α × List (List α)
  | [] => ([], [])
  | x :: rest =>
      if p x then ([], (x :: (parts p rest).1) :: (parts p rest).2)
      else (x :: (parts p rest).1, (parts p rest).2)

theorem parts_flatten (p : α → Bool) (l : List α) :
    (parts p l).1 ++ (parts p l).2.flatten = l := by
  induction l with
  | nil => rfl
  | cons x rest ih =>
    rw [parts]
    split <;> simp [ih]

/-- A part begins with an element that `p` holds of. -/
theorem head_of_mem_parts {l part : List α} (h : part ∈ (parts p l).2) :
    ∃ x rest, part = x :: rest ∧ p x = true := by
  induction l with
  | nil => cases h
  | cons x rest ih =>
    rw [parts] at h
    split at h
    · rename_i hx
      rcases List.mem_cons.mp h with rfl | h
      · exact ⟨x, _, rfl, hx⟩
      · exact ih h
    · exact ih h

/-! ## places -/

section places
variable {a b r s : List α}

theorem before_eq_of_filter_eq {x y : α} (hlist : a ++ x :: r = b ++ y :: s) (hx : p x = true)
    (hy : p y = true) (hfilter : a.filter p = b.filter p) : a = b := by
  rcases List.append_eq_append_iff.mp hlist with ⟨c, rfl, hc⟩ | ⟨c, rfl, hc⟩
  · cases c with
    | nil => rw [List.append_nil]
    | cons z c =>
      obtain ⟨rfl, -⟩ := List.cons.inj hc
      simp [List.filter_append, hx] at hfilter
  · cases c with
    | nil => rw [List.append_nil]
    | cons z c =>
      obtain ⟨rfl, -⟩ := List.cons.inj hc
      simp [List.filter_append, hy] at hfilter

/-- The longer of two beginnings that are the same up to elements `p` does not hold of, when
the other one ends with one it does hold of. -/
theorem append_of_filter_eq (hlist : a ++ r = b ++ s) (hlast : ∀ x ∈ b.getLast?, p x = true)
    (hfilter : a.filter p = b.filter p) : ∃ c, a = b ++ c ∧ ∀ x ∈ c, p x = false := by
  rcases List.append_eq_append_iff.mp hlist with ⟨c, rfl, -⟩ | ⟨c, rfl, -⟩
  · rw [List.filter_append, List.self_eq_append_right] at hfilter
    cases hc : c.getLast? with
    | none =>
      rw [List.getLast?_eq_none_iff] at hc
      subst hc
      exact ⟨[], by simp, by simp⟩
    | some x =>
      have hx : p x = true := hlast x (by simp [List.getLast?_append, hc])
      have hmem : x ∈ c.filter p := List.mem_filter.mpr ⟨List.mem_of_getLast? hc, hx⟩
      rw [hfilter] at hmem
      cases hmem
  · rw [List.filter_append, List.append_right_eq_self] at hfilter
    exact ⟨c, rfl, fun x hx => by simpa using List.filter_eq_nil_iff.mp hfilter x hx⟩

end places

end First
