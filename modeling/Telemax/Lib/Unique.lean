import Mathlib.Data.List.Nodup
import Telemax.Lib.Table

/-!
# Telemax.Lib.Unique

Unique indexes over a table, and writes that must respect them.  `same` says
when two rows collide; an index holds when no two rows do.

A *claim* is a guarded update of one row: it takes effect where the guard holds
and no index refuses it, and says otherwise why not.  Claims of several rows in a
row succeed iff each would succeed alone (`claimAll_eq_ok_iff`), as long as they
are about different rows and different values, and `transaction` undoes them all
when one fails.
-/

universe u v w

namespace Table

variable {ρ : Type u} {ν : Type v}

/-- Would this row under this key collide with another row? -/
def clashes (t : Table ρ) (same : ρ → ρ → Bool) (i : Nat) (r : ρ) : Bool :=
  t.holdsOf fun j q => j != i && same r q

/-- The index holds: no two rows collide. -/
def Indexed (t : Table ρ) (same : ρ → ρ → Bool) : Prop :=
  ∀ i p, t.get? i = some p → t.clashes same i p = false

theorem clashes_eq_false_iff {t : Table ρ} {same : ρ → ρ → Bool} {i : Nat} {r : ρ} :
    t.clashes same i r = false ↔ ∀ j q, t.get? j = some q → j ≠ i → same r q = false := by
  constructor
  · intro h j q hq hj
    by_contra hno
    have hclash : t.clashes same i r = true :=
      holdsOf_iff.mpr ⟨j, q, hq, by simpa [hj] using hno⟩
    rw [h] at hclash
    cases hclash
  · intro h
    by_contra hno
    obtain ⟨j, q, hq, hj⟩ := holdsOf_iff.mp (Bool.not_eq_false _ ▸ hno)
    simp only [Bool.and_eq_true, bne_iff_ne] at hj
    rw [h j q hq hj.1] at hj
    cases hj.2

/-- A row that collides with no other may be inserted. -/
theorem Indexed.insert {t : Table ρ} {same : ρ → ρ → Bool} (h : t.Indexed same)
    (hsymm : ∀ p q, same p q = same q p) {p : ρ}
    (hp : ∀ j q, t.get? j = some q → same p q = false) : (t.insert p).Indexed same := by
  intro i q hq
  rw [clashes_eq_false_iff]
  intro j r hr hne
  rw [get?_insert] at hq hr
  split at hq <;> split at hr
  · omega
  · cases hq
    exact hp j r hr
  · cases hr
    rw [hsymm]
    exact hp i q hq
  · exact clashes_eq_false_iff.mp (h i q hq) j r hr hne

/-- Rewriting a row so that it collides with no other keeps the index. -/
theorem Indexed.modify {t : Table ρ} {same : ρ → ρ → Bool} (h : t.Indexed same)
    (hsymm : ∀ p q, same p q = same q p) {i : Nat} {f : ρ → ρ}
    (hf : ∀ p, t.get? i = some p → t.clashes same i (f p) = false) :
    (t.modify i f).Indexed same := by
  intro j p hp
  rw [clashes_eq_false_iff]
  intro k q hq hne
  rw [get?_modify] at hp hq
  split at hp <;> split at hq
  · next hj hk => exact absurd (hk.trans hj.symm) hne
  · next hj hk =>
      obtain ⟨p₀, hp₀, rfl⟩ := Option.map_eq_some_iff.mp hp
      exact clashes_eq_false_iff.mp (hf p₀ hp₀) k q hq hk
  · next hj hk =>
      obtain ⟨q₀, hq₀, rfl⟩ := Option.map_eq_some_iff.mp hq
      rw [hsymm]
      exact clashes_eq_false_iff.mp (hf q₀ hq₀) j p hp hj
  · exact clashes_eq_false_iff.mp (h j p hp) k q hq hne

instance {t : Table ρ} {same : ρ → ρ → Bool} : Decidable (t.Indexed same) :=
  decidable_of_iff (∀ x ∈ t.rows, t.clashes same x.1 x.2 = false)
    ⟨fun h i p hp => h (i, p) (get?_eq_some_iff.mp hp),
      fun h x hx => h x.1 x.2 (get?_eq_some_iff.mpr hx)⟩

/-! ## claims -/

/-- Why a claim has no effect: no row that the guard lets through, or an index. -/
inductive Refusal
  | differs
  | taken
  deriving DecidableEq, Repr

/-- May the row be claimed for this value, as far as the index is concerned too? -/
def claimable (t : Table ρ) (same : ρ → ρ → Bool) (free : ν → ρ → Bool) (write : ν → ρ → ρ)
    (i : Nat) (x : ν) : Bool :=
  (t.get? i).any fun p => free x p && !t.clashes same i (write x p)

/-- Write one row, unless its guard or an index refuses. -/
def claim (t : Table ρ) (same : ρ → ρ → Bool) (free : ν → ρ → Bool) (write : ν → ρ → ρ)
    (i : Nat) (x : ν) : Except Refusal (Table ρ) :=
  match t.get? i with
  | some p =>
      if free x p then
        if t.clashes same i (write x p) then .error .taken else .ok (t.modify i (write x))
      else .error .differs
  | none => .error .differs

variable {t t' : Table ρ} {same : ρ → ρ → Bool} {free : ν → ρ → Bool} {write : ν → ρ → ρ}

theorem claim_eq_ok_iff {i : Nat} {x : ν} :
    t.claim same free write i x = .ok t' ↔
      t.claimable same free write i x = true ∧ t' = t.modify i (write x) := by
  unfold claim claimable
  cases t.get? i with
  | none => simp
  | some p =>
      cases hfree : free x p <;> cases hclash : t.clashes same i (write x p) <;>
        simp [hfree, hclash, eq_comm]

/-- A row that carries the value already may be claimed for it again. -/
theorem Indexed.claimable (h : t.Indexed same) {i : Nat} {x : ν} {p : ρ} (hp : t.get? i = some p)
    (hfree : free x p = true) (hself : write x p = p) : t.claimable same free write i x = true := by
  simp [Table.claimable, hp, hfree, hself, h i p hp]

/-- Claims one after the other; the first that is refused ends them. -/
def claimAll (same : ρ → ρ → Bool) (free : ν → ρ → Bool) (write : ν → ρ → ρ) :
    List (Nat × ν) → Table ρ → Except ((Nat × ν) × Refusal) (Table ρ)
  | [], t => .ok t
  | (i, x) :: rest, t =>
      match t.claim same free write i x with
      | .ok t => claimAll same free write rest t
      | .error refusal => .error ((i, x), refusal)

/-- What the claims write. -/
def claimed (write : ν → ρ → ρ) (todo : List (Nat × ν)) (t : Table ρ) : Table ρ :=
  todo.foldl (fun t c => t.modify c.1 (write c.2)) t

/-- A row is written by the claim that names it. -/
theorem get?_claimed {todo : List (Nat × ν)} (hkeys : (todo.map (·.1)).Nodup) (i : Nat) :
    (claimed write todo t).get? i =
      match todo.find? fun c => c.1 == i with
      | some c => (t.get? i).map (write c.2)
      | none => t.get? i := by
  induction todo generalizing t with
  | nil => rfl
  | cons c rest ih =>
      obtain ⟨hnot, hrest⟩ := List.nodup_cons.mp hkeys
      rw [claimed, List.foldl_cons, ← claimed, ih hrest]
      by_cases hi : c.1 = i
      · have hnone : rest.find? (fun c => c.1 == i) = none := by
          rw [List.find?_eq_none]
          rintro c' hc' hci
          exact hnot (List.mem_map.mpr ⟨c', hc', (beq_iff_eq.mp hci).trans hi.symm⟩)
        simp [hi, hnone]
      · have hne : i ≠ c.1 := fun h => hi h.symm
        simp [hi, get?_modify_ne _ _ hne]

/-- Claims whose rows carry their values already write nothing. -/
theorem claimed_eq_self {todo : List (Nat × ν)}
    (h : ∀ c ∈ todo, ∀ p, t.get? c.1 = some p → write c.2 p = p) : claimed write todo t = t := by
  induction todo with
  | nil => rfl
  | cons c rest ih =>
      rw [claimed, List.foldl_cons, modify_eq_self (h c List.mem_cons_self), ← claimed]
      exact ih fun c' hc' => h c' (List.mem_cons_of_mem _ hc')

/-- Writing one value onto a row that is free for it changes no collision with a
row that carries another. -/
def Independent (same : ρ → ρ → Bool) (free : ν → ρ → Bool) (write : ν → ρ → ρ) : Prop :=
  ∀ x y p q, x ≠ y → free y p = true → same (write x q) (write y p) = same (write x q) p

theorem claimable_modify (hind : Independent same free write) {i j : Nat} {x y : ν}
    (hij : i ≠ j) (hxy : x ≠ y) (hj : t.claimable same free write j y = true) :
    (t.modify j (write y)).claimable same free write i x =
      t.claimable same free write i x := by
  obtain ⟨q, hq, hfree⟩ := (Option.any_eq_true _ _).mp hj
  rw [Bool.and_eq_true] at hfree
  unfold claimable
  rw [get?_modify_ne _ _ hij]
  cases t.get? i with
  | none => rfl
  | some p =>
      have hclash : (t.modify j (write y)).clashes same i (write x p) =
          t.clashes same i (write x p) := by
        rw [Bool.eq_iff_iff, clashes, clashes, holdsOf_iff, holdsOf_iff]
        constructor
        · rintro ⟨k, r, hr, hk⟩
          rw [get?_modify] at hr
          split at hr
          · next hkj =>
              rw [hq, Option.map_some, Option.some.injEq] at hr
              rw [← hr, hind x y q p hxy hfree.1] at hk
              exact ⟨k, q, hkj ▸ hq, hk⟩
          · exact ⟨k, r, hr, hk⟩
        · rintro ⟨k, r, hr, hk⟩
          by_cases hkj : k = j
          · subst hkj
            rw [hq, Option.some.injEq] at hr
            subst hr
            exact ⟨k, write y q, by rw [get?_modify_self, hq]; rfl,
              by rwa [hind x y q p hxy hfree.1]⟩
          · exact ⟨k, r, by rwa [get?_modify_ne _ _ hkj], hk⟩
      simp only [Option.any_some, hclash]

/-- **Several claims**: they succeed iff each would alone, and write each its row. -/
theorem claimAll_eq_ok_iff (hind : Independent same free write) {todo : List (Nat × ν)}
    (hkeys : (todo.map (·.1)).Nodup) (hvals : (todo.map (·.2)).Nodup) :
    claimAll same free write todo t = .ok t' ↔
      (∀ c ∈ todo, t.claimable same free write c.1 c.2 = true) ∧ t' = claimed write todo t := by
  induction todo generalizing t with
  | nil =>
      constructor
      · intro h
        exact ⟨fun c hc => absurd hc List.not_mem_nil, (Except.ok.inj h).symm⟩
      · rintro ⟨-, rfl⟩
        rfl
  | cons c rest ih =>
      obtain ⟨i, x⟩ := c
      obtain ⟨hi, hkeys⟩ := List.nodup_cons.mp hkeys
      obtain ⟨hx, hvals⟩ := List.nodup_cons.mp hvals
      simp only [claimAll]
      cases hc : t.claim same free write i x with
      | error refusal =>
          have hno : ¬ t.claimable same free write i x = true := by
            intro h
            rw [claim_eq_ok_iff.mpr ⟨h, rfl⟩] at hc
            cases hc
          refine iff_of_false (by simp) ?_
          rintro ⟨hall, -⟩
          exact hno (hall (i, x) List.mem_cons_self)
      | ok t₁ =>
          obtain ⟨hclaim, rfl⟩ := claim_eq_ok_iff.mp hc
          have hrest : ∀ c ∈ rest,
              (t.modify i (write x)).claimable same free write c.1 c.2 =
                t.claimable same free write c.1 c.2 := by
            intro c hmem
            refine claimable_modify hind ?_ ?_ hclaim
            · exact fun hc => hi (List.mem_map.mpr ⟨c, hmem, hc⟩)
            · exact fun hc => hx (List.mem_map.mpr ⟨c, hmem, hc⟩)
          rw [ih hkeys hvals, List.forall_mem_cons]
          refine and_congr_left fun _ => ⟨fun h => ⟨hclaim, fun c hmem => ?_⟩, fun h c hmem => ?_⟩
          · rw [← hrest c hmem]
            exact h c hmem
          · rw [hrest c hmem]
            exact h.2 c hmem

/-- Claims keep the index. -/
theorem Indexed.claimAll (hsymm : ∀ p q, same p q = same q p) {todo : List (Nat × ν)}
    (h : t.Indexed same) (hc : claimAll same free write todo t = .ok t') : t'.Indexed same := by
  induction todo generalizing t with
  | nil =>
      cases hc
      exact h
  | cons c rest ih =>
      obtain ⟨i, x⟩ := c
      simp only [Table.claimAll] at hc
      split at hc
      · next t₁ ht₁ =>
          obtain ⟨hclaim, rfl⟩ := claim_eq_ok_iff.mp ht₁
          refine ih (h.modify hsymm fun p hp => ?_) hc
          simp only [Table.claimable, hp, Option.any_some, Bool.and_eq_true, Bool.not_eq_true'] at hclaim
          exact hclaim.2
      · cases hc

end Table

/-- `BEGIN`, the statements, `COMMIT`; or `ROLLBACK`, when one of them fails. -/
def transaction {σ : Type u} {ε : Type w} (body : σ → Except ε σ) (s : σ) : σ × Option ε :=
  match body s with
  | .ok s' => (s', none)
  | .error e => (s, some e)

theorem transaction_eq_none {σ : Type u} {ε : Type w} {body : σ → Except ε σ} {s s' : σ} :
    transaction body s = (s', none) ↔ body s = .ok s' := by
  unfold transaction
  split <;> simp [*]
