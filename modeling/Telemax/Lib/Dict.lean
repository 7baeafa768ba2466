import Mathlib.Data.List.Nodup

/-!
# Telemax.Lib.Dict

Dictionaries that keep the order in which their keys were first written.  That no
key stands twice is a field; `same` is the equality that forgets the order.

A lookup after each operation: `get?_filter`, `get?_modify`, `get?_insert`, `get?_erase`.
-/

universe u v

/-- A dictionary in the order of its keys' insertion. -/
structure Dict (κ : Type u) (ν : Type v) where
  entries : List (κ × ν)
  nodup : (entries.map (·.1)).Nodup
  deriving Repr

namespace Dict

variable {κ : Type u} {ν : Type v} [DecidableEq κ]

def empty : Dict κ ν := ⟨[], .nil⟩

def keys (d : Dict κ ν) : List κ := d.entries.map (·.1)

def get? (d : Dict κ ν) (k : κ) : Option ν := (d.entries.find? fun e => e.1 = k).map (·.2)

theorem get?_eq_some_iff {d : Dict κ ν} {k : κ} {v : ν} : d.get? k = some v ↔ (k, v) ∈ d.entries := by
  obtain ⟨entries, nodup⟩ := d
  simp only [get?]
  induction entries with
  | nil => simp
  | cons e rest ih =>
      rw [List.map_cons, List.nodup_cons] at nodup
      by_cases he : e.1 = k
      · have hnot : (k, v) ∉ rest := fun hmem =>
          nodup.1 (List.mem_map.mpr ⟨(k, v), hmem, he.symm⟩)
        simp only [List.find?_cons, he, decide_true, Option.map_some, Option.some.injEq,
          List.mem_cons, hnot, or_false]
        exact ⟨fun hv => by rw [← he, ← hv], fun hv => by rw [← hv]⟩
      · have hne : (k, v) ≠ e := fun hk => he (by rw [← hk])
        simp only [List.find?_cons, he, decide_false, List.mem_cons, hne, false_or]
        exact ih nodup.2

theorem mem_keys {d : Dict κ ν} {k : κ} : k ∈ d.keys ↔ ∃ v, d.get? k = some v := by
  simp only [keys, List.mem_map, get?_eq_some_iff]
  constructor
  · rintro ⟨⟨k, v⟩, hmem, rfl⟩
    exact ⟨v, hmem⟩
  · exact fun ⟨v, hv⟩ => ⟨(k, v), hv, rfl⟩

/-- A lookup is what the entries say, so that two dictionaries agree on a key as their entries do. -/
theorem get?_eq_of {d : Dict κ ν} {k : κ} {o : Option ν} (h : ∀ v, (k, v) ∈ d.entries ↔ o = some v) :
    d.get? k = o :=
  Option.ext fun v => get?_eq_some_iff.trans (h v)

def filter (d : Dict κ ν) (p : κ → ν → Bool) : Dict κ ν where
  entries := d.entries.filter fun e => p e.1 e.2
  nodup := d.nodup.sublist (List.filter_sublist.map _)

theorem get?_filter (d : Dict κ ν) (p : κ → ν → Bool) (k : κ) :
    (d.filter p).get? k = (d.get? k).filter (p k) := by
  refine get?_eq_of fun v => ?_
  simp only [filter, List.mem_filter, Option.filter_eq_some_iff, get?_eq_some_iff]

/-- Rewrite the value of a key that is there. -/
def modify (d : Dict κ ν) (k : κ) (f : ν → ν) : Dict κ ν where
  entries := d.entries.map fun e => if e.1 = k then (e.1, f e.2) else e
  nodup := by
    have hkeys : (d.entries.map fun e => if e.1 = k then (e.1, f e.2) else e).map (·.1) =
        d.entries.map (·.1) := by
      rw [List.map_map]
      refine List.map_congr_left fun e _ => ?_
      simp only [Function.comp_apply]
      split <;> rfl
    rw [hkeys]
    exact d.nodup

theorem get?_modify (d : Dict κ ν) (k : κ) (f : ν → ν) (j : κ) :
    (d.modify k f).get? j = if j = k then (d.get? k).map f else d.get? j := by
  refine get?_eq_of fun v => ?_
  simp only [modify, List.mem_map]
  constructor
  · rintro ⟨⟨i, w⟩, hmem, heq⟩
    dsimp only at heq
    split at heq
    · next hi =>
        obtain ⟨rfl, rfl⟩ := Prod.mk.inj heq
        rw [if_pos hi, ← hi, get?_eq_some_iff.mpr hmem]
        rfl
    · next hi =>
        obtain ⟨rfl, rfl⟩ := Prod.mk.inj heq
        rw [if_neg hi, get?_eq_some_iff.mpr hmem]
  · intro h
    split at h
    · next hj =>
        obtain ⟨w, hw, rfl⟩ := Option.map_eq_some_iff.mp h
        exact ⟨(k, w), get?_eq_some_iff.mp hw, by simp [hj]⟩
    · next hj => exact ⟨(j, v), get?_eq_some_iff.mp h, by simp [hj]⟩

/-- Write a key: in its place, or behind the others. -/
def insert (d : Dict κ ν) (k : κ) (v : ν) : Dict κ ν :=
  if h : k ∈ d.keys then d.modify k fun _ => v
  else ⟨d.entries ++ [(k, v)], by
    rw [List.map_append]
    exact List.nodup_append.mpr ⟨d.nodup, List.nodup_singleton _, by
      rintro i hmem j hnew rfl
      obtain rfl : i = k := List.mem_singleton.mp hnew
      exact h hmem⟩⟩

theorem get?_insert (d : Dict κ ν) (k : κ) (v : ν) (j : κ) :
    (d.insert k v).get? j = if j = k then some v else d.get? j := by
  unfold insert
  split
  · next h =>
    obtain ⟨w, hw⟩ := mem_keys.mp h
    rw [get?_modify, hw]
    rfl
  · next h =>
    refine get?_eq_of fun w => ?_
    rw [List.mem_append, List.mem_singleton, Prod.mk.injEq, ← get?_eq_some_iff]
    split
    · next hj =>
      have hnone : d.get? j = none := by
        cases hget : d.get? j with
        | none => rfl
        | some u => exact absurd (mem_keys.mpr ⟨u, hj ▸ hget⟩) h
      rw [hnone]
      simp [hj, eq_comm]
    · next hj => simp [hj]

@[simp] theorem get?_empty (k : κ) : (empty : Dict κ ν).get? k = none := rfl

def erase (d : Dict κ ν) (k : κ) : Dict κ ν := d.filter fun j _ => j ≠ k

theorem get?_erase (d : Dict κ ν) (k j : κ) :
    (d.erase k).get? j = if j = k then none else d.get? j := by
  rw [erase, get?_filter]
  split
  · next hj => simp [hj]
  · next hj => cases d.get? j <;> simp [hj]

/-- The equality of dictionaries. -/
def same [DecidableEq ν] (a b : Dict κ ν) : Bool :=
  (a.keys ++ b.keys).all fun k => a.get? k = b.get? k

theorem same_iff [DecidableEq ν] {a b : Dict κ ν} : a.same b = true ↔ ∀ k, a.get? k = b.get? k := by
  simp only [same, List.all_eq_true, List.mem_append, decide_eq_true_eq, mem_keys]
  refine ⟨fun h k => ?_, fun h k _ => h k⟩
  cases ha : a.get? k with
  | some v => exact ha ▸ h k (.inl ⟨v, ha⟩)
  | none =>
      cases hb : b.get? k with
      | none => rfl
      | some v => exact ha ▸ hb ▸ h k (.inr ⟨v, hb⟩)

end Dict
