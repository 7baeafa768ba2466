import Mathlib.Data.List.DropRight

/-!
# Telemax.Lib.Lines

A text as its lines: taken apart at the letters that break a line, two letters in a
row counting as one break where they belong together, and put together again.  Nothing
here is about a particular alphabet.
-/

namespace Lines

variable {α : Type}

/-- The letter stands at the beginning of the first line. -/
def consFirst (x : α) : List (List α) → List (List α)
  | [] => [[x]]
  | line :: rest => (x :: line) :: rest

/-- `str.splitlines`. -/
def splitLines (breaks : α → Bool) (pair : α → α → Bool) : List α → List (List α)
  | [] => []
  | [x] => if breaks x then [[]] else [[x]]
  | x :: y :: rest =>
      if breaks x then
        if pair x y then [] :: splitLines breaks pair rest
        else [] :: splitLines breaks pair (y :: rest)
      else consFirst x (splitLines breaks pair (y :: rest))

variable {breaks : α → Bool} {pair : α → α → Bool}

theorem flatten_consFirst (x : α) (lines : List (List α)) :
    (consFirst x lines).flatten = x :: lines.flatten := by
  cases lines <;> rfl

/-- The lines hold every letter that breaks none. -/
theorem flatten_splitLines (h : ∀ x y, pair x y = true → breaks y = true) (text : List α) :
    (splitLines breaks pair text).flatten = text.filter fun x => !breaks x := by
  fun_induction splitLines breaks pair text with
  | case1 => rfl
  | case2 x hx => simp [hx]
  | case3 x hx => simp [hx]
  | case4 x y rest hx hpair ih => simp [hx, h x y hpair, ih]
  | case5 x y rest hx hpair ih =>
    rw [List.flatten_cons, List.nil_append, ih, List.filter_cons_of_neg (a := x) (by simp [hx])]
  | case6 x y rest hx ih =>
    rw [flatten_consFirst, ih, List.filter_cons_of_pos (a := x) (by simp [hx])]

/-- No line has a break in it. -/
theorem breaks_of_mem_splitLines (h : ∀ x y, pair x y = true → breaks y = true) {text line : List α}
    (hline : line ∈ splitLines breaks pair text) {x : α} (hx : x ∈ line) : breaks x = false := by
  have hmem : x ∈ (splitLines breaks pair text).flatten := List.mem_flatten.mpr ⟨line, hline, hx⟩
  rw [flatten_splitLines h, List.mem_filter] at hmem
  simpa using hmem.2

/-! ## lines put together -/

section join
variable {nl : α}

theorem splitLines_nl_cons (hnl : breaks nl = true) (hpair : ∀ y, pair nl y = false)
    (rest : List α) : splitLines breaks pair (nl :: rest) = [] :: splitLines breaks pair rest := by
  cases rest with
  | nil => simp [splitLines, hnl]
  | cons y rest => simp [splitLines, hnl, hpair]

/-- The first line ends at the first break. -/
theorem splitLines_append_nl (hnl : breaks nl = true) (hpair : ∀ y, pair nl y = false)
    {line : List α} (hline : ∀ x ∈ line, breaks x = false) (rest : List α) :
    splitLines breaks pair (line ++ nl :: rest) = line :: splitLines breaks pair rest := by
  induction line with
  | nil => exact splitLines_nl_cons hnl hpair rest
  | cons x line ih =>
    have hx : breaks x = false := hline x List.mem_cons_self
    have ih := ih fun y hy => hline y (List.mem_cons_of_mem _ hy)
    cases hrest : line ++ nl :: rest with
    | nil => simp at hrest
    | cons y tail =>
      rw [List.cons_append, hrest, splitLines, if_neg (by simp [hx]), ← hrest, ih]
      rfl

/-- Lines put together, with a break behind each, are taken apart into the same lines. -/
theorem splitLines_intercalate (hnl : breaks nl = true) (hpair : ∀ y, pair nl y = false)
    {lines : List (List α)} (hne : lines ≠ [])
    (hlines : ∀ line ∈ lines, ∀ x ∈ line, breaks x = false) :
    splitLines breaks pair ([nl].intercalate lines ++ [nl]) = lines := by
  induction lines with
  | nil => exact absurd rfl hne
  | cons line rest ih =>
    have hline := hlines line List.mem_cons_self
    cases rest with
    | nil =>
      rw [List.intercalate_singleton, splitLines_append_nl hnl hpair hline]
      rfl
    | cons next rest =>
      have ih := ih (List.cons_ne_nil _ _) fun l hl => hlines l (List.mem_cons_of_mem _ hl)
      rw [List.intercalate_cons_cons, List.append_assoc, List.append_assoc, List.singleton_append,
        splitLines_append_nl hnl hpair hline, ih]

end join

theorem intercalate_concat (between : List α) {lines : List (List α)} (hne : lines ≠ [])
    (line : List α) :
    between.intercalate (lines ++ [line]) = between.intercalate lines ++ between ++ line := by
  induction lines with
  | nil => exact absurd rfl hne
  | cons first rest ih =>
    cases rest with
    | nil => simp
    | cons next rest =>
      have ih := ih (List.cons_ne_nil _ _)
      rw [List.cons_append] at ih
      rw [List.cons_append, List.cons_append, List.intercalate_cons_cons, ih,
        List.intercalate_cons_cons]
      simp only [List.append_assoc]

/-- Breaks at the end of lines put together are those of empty lines at the end. -/
theorem rdropWhile_intercalate [DecidableEq α] {nl : α} {lines : List (List α)}
    (hlines : ∀ line ∈ lines, nl ∉ line) :
    ([nl].intercalate lines).rdropWhile (· = nl) =
      [nl].intercalate (lines.rdropWhile (· = [])) := by
  induction lines using List.reverseRecOn with
  | nil => rfl
  | append_singleton lines line ih =>
    have ih := ih fun l hl => hlines l (List.mem_append_left _ hl)
    have hline := hlines line (List.mem_append_right _ List.mem_cons_self)
    by_cases hempty : line = []
    · rw [List.rdropWhile_concat_pos _ _ _ (by simpa using hempty), ← ih, hempty]
      by_cases hlines : lines = []
      · rw [hlines]
        rfl
      · rw [intercalate_concat _ hlines, List.append_nil, List.rdropWhile_concat_pos _ _ _ (by simp)]
    · -- the last letter of the last line stays
      rw [List.rdropWhile_concat_neg _ _ _ (by simpa using hempty), List.rdropWhile_eq_self_iff]
      intro hne
      have hlast : ([nl].intercalate (lines ++ [line])).getLast? = line.getLast? := by
        by_cases hlines : lines = []
        · simp [hlines]
        · rw [intercalate_concat _ hlines, List.getLast?_append_of_ne_nil _ hempty]
      rw [List.getLast?_eq_getLast_of_ne_nil hne] at hlast
      have hmem := List.mem_of_getLast? hlast.symm
      have hnot : ([nl].intercalate (lines ++ [line])).getLast hne ≠ nl := fun heq => hline (heq ▸ hmem)
      simpa using hnot

/-! ## letters of one kind -/

/-- Putting texts together adds only what stands between them. -/
theorem filter_intercalate {p : α → Bool} {between : List α} (h : between.filter p = [])
    (texts : List (List α)) : (between.intercalate texts).filter p = texts.flatten.filter p := by
  induction texts with
  | nil => rfl
  | cons text rest ih =>
    cases rest with
    | nil => simp [List.intercalate]
    | cons next rest =>
      rw [List.intercalate_cons_cons, List.filter_append, List.filter_append, h, List.append_nil, ih,
        ← List.filter_append]
      rfl

/-- A letter that breaks no line stays where it is when its text is taken apart. -/
theorem filter_splitLines {p : α → Bool} (hpair : ∀ x y, pair x y = true → breaks y = true)
    (h : ∀ x, p x = true → breaks x = false) (text : List α) :
    (splitLines breaks pair text).flatten.filter p = text.filter p := by
  rw [flatten_splitLines hpair, List.filter_filter]
  refine List.filter_congr fun x _ => ?_
  cases hp : p x with
  | false => rfl
  | true => simp [h x hp]

end Lines
