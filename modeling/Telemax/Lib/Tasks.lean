import Mathlib.Data.List.Basic

/-!
# Telemax.Lib.Tasks

Tasks in a list, each known by its place: one of them changes, or a new one is
added.
-/

namespace Tasks

variable {τ : Type} {l : List τ} {m n : Nat} {a u : τ}

/-- One changes, and the others stay where they stand. -/
theorem set_cases (h : (l.set n a)[m]? = some u) : m = n ∧ u = a ∨ m ≠ n ∧ l[m]? = some u := by
  by_cases hm : m = n
  · subst hm
    have hlt : m < (l.set m a).length := (List.getElem?_eq_some_iff.mp h).1
    rw [List.length_set] at hlt
    rw [List.getElem?_set_self hlt] at h
    exact .inl ⟨rfl, (Option.some.inj h).symm⟩
  · rw [List.getElem?_set_ne (Ne.symm hm)] at h
    exact .inr ⟨hm, h⟩

/-- One is added. -/
theorem append_cases (h : (l ++ [a])[m]? = some u) :
    m = l.length ∧ u = a ∨ l[m]? = some u := by
  rcases Nat.lt_trichotomy m l.length with hlt | rfl | hgt
  · rw [List.getElem?_append_left hlt] at h
    exact .inr h
  · rw [List.getElem?_concat_length] at h
    exact .inl ⟨rfl, (Option.some.inj h).symm⟩
  · rw [List.getElem?_eq_none (by rw [List.length_append, List.length_singleton]; omega)] at h
    cases h

/-- What is read off the tasks, when one changes. -/
theorem filterMap_set {β : Type} {f : τ → Option β} (h : l[n]? = some u) :
    ((f u).toList ++ (l.set n a).filterMap f).Perm ((f a).toList ++ l.filterMap f) := by
  induction l generalizing n with
  | nil => cases h
  | cons b l ih =>
    cases n with
    | zero =>
      obtain rfl := Option.some.inj h
      rw [List.set_cons_zero, List.filterMap_cons, List.filterMap_cons]
      cases f b with
      | none => cases f a <;> exact List.Perm.refl _
      | some x =>
        cases f a with
        | none => exact List.Perm.refl _
        | some y => exact List.Perm.swap y x _
    | succ n =>
      rw [List.set_cons_succ, List.filterMap_cons, List.filterMap_cons]
      cases f b with
      | none => exact ih h
      | some x =>
        exact (List.perm_middle.trans ((ih h).cons x)).trans List.perm_middle.symm

/-- How many pass a test, when one changes. -/
theorem countP_set (p : τ → Bool) (h : l[n]? = some u) :
    (l.set n a).countP p + (if p u then 1 else 0) = l.countP p + if p a then 1 else 0 := by
  induction l generalizing n with
  | nil => cases h
  | cons b l ih =>
    cases n with
    | zero =>
      obtain rfl := Option.some.inj h
      rw [List.set_cons_zero, List.countP_cons, List.countP_cons]
      omega
    | succ n =>
      rw [List.set_cons_succ, List.countP_cons, List.countP_cons]
      have := ih h
      omega

end Tasks
