import Telemax.Lib.Dict

/-!
# Telemax.Lib.Index

A dictionary as an index of a list that only grows: it says under a key where in the
list the item of that key stands.  Items leave the index, and new ones come in at the
end of the list.
-/

universe u v

/-- Every place in the index is that of an item with this key. -/
structure Keyed {κ : Type u} {α : Type v} [DecidableEq κ] (d : Dict κ Nat) (key : α → κ)
    (items : List α) : Prop where
  item : ∀ {k : κ} {i : Nat}, d.get? k = some i → ∃ a, items[i]? = some a ∧ key a = k

namespace Keyed

variable {κ : Type u} {α : Type v} [DecidableEq κ] {d : Dict κ Nat} {key : α → κ}
  {items : List α} {i j : Nat} {a b : α}

theorem empty (key : α → κ) (items : List α) : Keyed .empty key items :=
  ⟨fun h => by cases h⟩

theorem erase (h : Keyed d key items) (k : κ) : Keyed (d.erase k) key items := by
  refine ⟨fun {k' i} hget => ?_⟩
  rw [Dict.get?_erase] at hget
  split at hget
  · cases hget
  · exact h.item hget

theorem insert (h : Keyed d key items) (a : α) :
    Keyed (d.insert (key a) items.length) key (items ++ [a]) := by
  refine ⟨fun {k i} hget => ?_⟩
  rw [Dict.get?_insert] at hget
  split at hget
  · rename_i hk
    obtain rfl := Option.some.inj hget
    exact ⟨a, List.getElem?_concat_length, hk.symm⟩
  · obtain ⟨b, hb, hk⟩ := h.item hget
    rw [List.getElem?_append_left (List.getElem?_eq_some_iff.mp hb).1]
    exact ⟨b, hb, hk⟩

/-- What is in the index after an item has left it. -/
theorem get?_erase (key : α → κ) (ha : items[i]? = some a) (hi : d.get? (key a) = some i)
    (hb : items[j]? = some b) :
    (d.erase (key a)).get? (key b) = some j ↔ j ≠ i ∧ d.get? (key b) = some j := by
  rw [Dict.get?_erase]
  split
  · rename_i hkey
    rw [hkey, hi]
    simp only [Option.some.injEq, reduceCtorEq, false_iff, not_and]
    exact fun hne heq => hne heq.symm
  · rename_i hkey
    refine ⟨fun h => ⟨?_, h⟩, fun h => h.2⟩
    rintro rfl
    exact hkey (congrArg key (Option.some.inj (hb.symm.trans ha)))

/-- What is in the index after an item has come in under a key that was free. -/
theorem get?_insert (key : α → κ) (ha : d.get? (key a) = none)
    (hb : (items ++ [a])[j]? = some b) :
    (d.insert (key a) items.length).get? (key b) = some j ↔
      j = items.length ∨ d.get? (key b) = some j := by
  rw [Dict.get?_insert]
  split
  · rename_i hkey
    rw [hkey, ha]
    simp [eq_comm]
  · rename_i hkey
    refine ⟨.inr, fun h' => h'.resolve_left ?_⟩
    rintro rfl
    rw [List.getElem?_concat_length] at hb
    exact hkey (by rw [Option.some.inj hb])

end Keyed
