import Mathlib.Data.List.Basic

/-!
# Telemax.Lib.Table

A table of rows under an automatically increasing integer key.  A row gets its
key when it is inserted, keys are never used again after a delete, and the rows
are kept in key order, so that reading them in order is `ORDER BY id`.

Both facts about the keys are fields of the structure.  The operations are the
statements a repository issues (insert, update where, delete where, select
where), and each has one lemma that says what a lookup by key finds after it:

* `get?_insert`, `get?_update`, `get?_modify`, `get?_delete` — lookups;
* `mem_select`, `first_some`, `first_none`, `holdsOf_iff` — queries.
-/

universe u

/-- Rows in key order, all keys below the next one to be given out. -/
structure Table (ρ : Type u) where
  rows : List (Nat × ρ)
  next : Nat
  sorted : rows.Pairwise fun a b => a.1 < b.1
  below : ∀ r ∈ rows, r.1 < next

namespace Table

variable {ρ : Type u}

/-- A table without rows; the first key is one. -/
def empty : Table ρ := ⟨[], 1, .nil, by simp⟩

/-- The row under a key. -/
def get? (t : Table ρ) (i : Nat) : Option ρ := (t.rows.find? fun r => r.1 == i).map (·.2)

/-- A lookup finds a row iff the row is there: keys are not repeated. -/
theorem get?_eq_some_iff {t : Table ρ} {i : Nat} {r : ρ} :
    t.get? i = some r ↔ (i, r) ∈ t.rows := by
  obtain ⟨rows, next, sorted, below⟩ := t
  simp only [get?]
  clear below
  induction rows with
  | nil => simp
  | cons x xs ih =>
      obtain ⟨hx, hxs⟩ := List.pairwise_cons.mp sorted
      by_cases h : x.1 = i
      · have hnot : (i, r) ∉ xs := fun hmem => absurd (hx _ hmem) (by simp [h])
        simp only [List.find?_cons, h, beq_self_eq_true, Option.map_some, Option.some.injEq,
          List.mem_cons, hnot, or_false]
        exact ⟨fun hr => by rw [← h, ← hr], fun hr => by rw [← hr]⟩
      · have hne : (i, r) ≠ x := fun hr => h (by rw [← hr])
        simp only [List.find?_cons, beq_eq_false_iff_ne.mpr h, List.mem_cons, hne, false_or]
        exact ih hxs

/-- A key that is found was given out before. -/
theorem lt_next {t : Table ρ} {i : Nat} {r : ρ} (h : t.get? i = some r) : i < t.next :=
  t.below _ (get?_eq_some_iff.mp h)

@[simp] theorem get?_empty (i : Nat) : (empty : Table ρ).get? i = none := rfl

@[simp] theorem get?_next (t : Table ρ) : t.get? t.next = none := by
  cases h : t.get? t.next with
  | none => rfl
  | some r => exact absurd (lt_next h) (Nat.lt_irrefl _)

/-- Two tables agree on a lookup when they have the same rows under that key. -/
theorem get?_eq_of_mem_iff {t : Table ρ} {i : Nat} {o : Option ρ}
    (h : ∀ r, (i, r) ∈ t.rows ↔ o = some r) : t.get? i = o := by
  ext r
  rw [get?_eq_some_iff, h]

/-! ## statements -/

/-- `INSERT`: the row goes under the next key. -/
def insert (t : Table ρ) (r : ρ) : Table ρ where
  rows := t.rows ++ [(t.next, r)]
  next := t.next + 1
  sorted := by
    refine List.pairwise_append.mpr ⟨t.sorted, List.pairwise_singleton _ _, ?_⟩
    simpa using fun a b h => t.below (a, b) h
  below := by
    simp only [List.mem_append, List.mem_singleton]
    rintro r (h | rfl)
    · exact Nat.lt_succ_of_lt (t.below r h)
    · exact Nat.lt_succ_self _

/-- `UPDATE … WHERE`: every row that satisfies `p` is rewritten by `f`. -/
def update (t : Table ρ) (p : Nat → ρ → Bool) (f : ρ → ρ) : Table ρ where
  rows := t.rows.map fun r => (r.1, if p r.1 r.2 then f r.2 else r.2)
  next := t.next
  sorted := List.pairwise_map.mpr t.sorted
  below := by
    simp only [List.mem_map]
    rintro _ ⟨r, hr, rfl⟩
    exact t.below r hr

/-- `UPDATE … WHERE id = ?`. -/
def modify (t : Table ρ) (i : Nat) (f : ρ → ρ) : Table ρ := t.update (fun j _ => j == i) f

/-- `DELETE … WHERE`. -/
def delete (t : Table ρ) (p : Nat → ρ → Bool) : Table ρ where
  rows := t.rows.filter fun r => !p r.1 r.2
  next := t.next
  sorted := t.sorted.filter _
  below := fun r h => t.below r (List.mem_of_mem_filter h)

@[simp] theorem next_insert (t : Table ρ) (r : ρ) : (t.insert r).next = t.next + 1 := rfl
@[simp] theorem next_update (t : Table ρ) (p : Nat → ρ → Bool) (f : ρ → ρ) :
    (t.update p f).next = t.next := rfl
@[simp] theorem next_modify (t : Table ρ) (i : Nat) (f : ρ → ρ) :
    (t.modify i f).next = t.next := rfl
@[simp] theorem next_delete (t : Table ρ) (p : Nat → ρ → Bool) :
    (t.delete p).next = t.next := rfl

theorem get?_insert (t : Table ρ) (r : ρ) (i : Nat) :
    (t.insert r).get? i = if i = t.next then some r else t.get? i := by
  refine get?_eq_of_mem_iff fun x => ?_
  simp only [insert, List.mem_append, List.mem_singleton, Prod.mk.injEq, ← get?_eq_some_iff]
  by_cases h : i = t.next
  · simp [h, eq_comm]
  · simp [h]

theorem get?_update (t : Table ρ) (p : Nat → ρ → Bool) (f : ρ → ρ) (i : Nat) :
    (t.update p f).get? i = (t.get? i).map fun r => if p i r then f r else r := by
  refine get?_eq_of_mem_iff fun x => ?_
  simp only [update, List.mem_map, Prod.mk.injEq, Prod.exists, Option.map_eq_some_iff,
    get?_eq_some_iff]
  constructor
  · rintro ⟨_, r, hmem, rfl, rfl⟩
    exact ⟨r, hmem, rfl⟩
  · rintro ⟨r, hmem, rfl⟩
    exact ⟨i, r, hmem, rfl, rfl⟩

theorem get?_modify (t : Table ρ) (i : Nat) (f : ρ → ρ) (j : Nat) :
    (t.modify i f).get? j = if j = i then (t.get? i).map f else t.get? j := by
  rw [modify, get?_update]
  by_cases h : j = i
  · simp [h]
  · simp [h]

theorem get?_delete (t : Table ρ) (p : Nat → ρ → Bool) (i : Nat) :
    (t.delete p).get? i = (t.get? i).filter fun r => !p i r := by
  refine get?_eq_of_mem_iff fun x => ?_
  simp [delete, List.mem_filter, ← get?_eq_some_iff, Option.filter_eq_some_iff]

@[simp] theorem get?_modify_self (t : Table ρ) (i : Nat) (f : ρ → ρ) :
    (t.modify i f).get? i = (t.get? i).map f := by
  rw [get?_modify, if_pos rfl]

theorem get?_modify_ne (t : Table ρ) {i j : Nat} (f : ρ → ρ) (h : j ≠ i) :
    (t.modify i f).get? j = t.get? j := by
  rw [get?_modify, if_neg h]

/-- A rewriting that changes no row changes nothing. -/
theorem modify_eq_self {t : Table ρ} {i : Nat} {f : ρ → ρ}
    (h : ∀ r, t.get? i = some r → f r = r) : t.modify i f = t := by
  have hrow : ∀ x ∈ t.rows, (x.1, if x.1 == i then f x.2 else x.2) = id x := by
    rintro ⟨j, r⟩ hr
    by_cases hj : j = i
    · subst hj
      simp [h r (get?_eq_some_iff.mpr hr)]
    · simp [hj]
  have hrows : (t.modify i f).rows = t.rows := (List.map_congr_left hrow).trans t.rows.map_id
  obtain ⟨rows, next, sorted, below⟩ := t
  simp only [modify, update, mk.injEq, and_true] at hrows ⊢
  exact hrows

/-! ## queries -/

/-- `SELECT … WHERE … ORDER BY id`. -/
def select (t : Table ρ) (p : Nat → ρ → Bool) : List (Nat × ρ) :=
  t.rows.filter fun r => p r.1 r.2

/-- The first row, in key order, that satisfies `p`. -/
def first (t : Table ρ) (p : Nat → ρ → Bool) : Option (Nat × ρ) :=
  t.rows.find? fun r => p r.1 r.2

/-- Is there a row that satisfies `p`? -/
def holdsOf (t : Table ρ) (p : Nat → ρ → Bool) : Bool := t.rows.any fun r => p r.1 r.2

theorem mem_select {t : Table ρ} {p : Nat → ρ → Bool} {i : Nat} {r : ρ} :
    (i, r) ∈ t.select p ↔ t.get? i = some r ∧ p i r = true := by
  rw [select, List.mem_filter, get?_eq_some_iff]

theorem select_sorted (t : Table ρ) (p : Nat → ρ → Bool) :
    (t.select p).Pairwise fun a b => a.1 < b.1 :=
  t.sorted.filter _

/-- A query that a rewriting does not touch finds the same rows, rewritten. -/
theorem select_modify {t : Table ρ} {p : Nat → ρ → Bool} {i : Nat} {f : ρ → ρ}
    (h : ∀ j r, p j (f r) = p j r) :
    (t.modify i f).select p = (t.select p).map fun x => (x.1, if x.1 == i then f x.2 else x.2) := by
  have hp : ∀ x : Nat × ρ, p x.1 (if x.1 == i then f x.2 else x.2) = p x.1 x.2 := by
    intro x
    split
    · exact h x.1 x.2
    · rfl
  simp only [select, modify, update, List.filter_map, Function.comp_def, hp]

theorem first_some {t : Table ρ} {p : Nat → ρ → Bool} {x : Nat × ρ}
    (h : t.first p = some x) : t.get? x.1 = some x.2 ∧ p x.1 x.2 = true :=
  ⟨get?_eq_some_iff.mpr (List.mem_of_find?_eq_some h),
    List.find?_some (p := fun r : Nat × ρ => p r.1 r.2) h⟩

/-- The first row is before every other that satisfies `p`. -/
theorem first_le {t : Table ρ} {p : Nat → ρ → Bool} {x : Nat × ρ} (h : t.first p = some x)
    {i : Nat} {r : ρ} (hr : t.get? i = some r) (hp : p i r = true) : x.1 ≤ i := by
  obtain ⟨before, after, hrows, hbefore⟩ :=
    (List.find?_eq_some_iff_append.mp h).2
  have hmem : (i, r) ∈ before ++ x :: after := hrows ▸ get?_eq_some_iff.mp hr
  rcases List.mem_append.mp hmem with hin | hin
  · exact absurd hp (by simpa using hbefore _ hin)
  · have hsorted := t.sorted
    rw [hrows, List.pairwise_append, List.pairwise_cons] at hsorted
    rcases List.mem_cons.mp hin with rfl | hafter
    · exact Nat.le_refl _
    · exact Nat.le_of_lt (hsorted.2.1.1 _ hafter)

theorem first_none {t : Table ρ} {p : Nat → ρ → Bool} (h : t.first p = none)
    {i : Nat} {r : ρ} (hr : t.get? i = some r) : p i r = false := by
  simpa using List.find?_eq_none.mp h _ (get?_eq_some_iff.mp hr)

theorem holdsOf_iff {t : Table ρ} {p : Nat → ρ → Bool} :
    t.holdsOf p = true ↔ ∃ i r, t.get? i = some r ∧ p i r = true := by
  simp only [holdsOf, List.any_eq_true, Prod.exists, get?_eq_some_iff]

end Table
