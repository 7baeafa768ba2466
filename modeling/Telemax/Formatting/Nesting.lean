import Telemax.Formatting.Elements

/-!
# Telemax.Formatting.Nesting

What the rendering is to be: the text with markers around ranges of it, nested as
the ranges are.  A `Marked` text is such a tree, so its markers nest properly by
construction; `Placed` says that each stands around the characters of its range.
-/

namespace Telemax.Formatting

open Utf16

/-- A text with markers in it. -/
inductive Marked
  | done
  | char (c : Char) (rest : Marked)
  | styled (item : Entity) (body rest : Marked)

namespace Marked

/-- Without the markers. -/
def text : Marked → List Char
  | done => []
  | char c rest => c :: rest.text
  | styled _ body rest => body.text ++ rest.text

/-- With them. -/
def markdown : Marked → List Char
  | done => []
  | char c rest => c :: rest.markdown
  | styled item body rest => item.opener ++ body.markdown ++ item.closer ++ rest.markdown

/-- The entities whose markers are in it, outer before inner. -/
def items : Marked → List Entity
  | done => []
  | char _ rest => rest.items
  | styled item body rest => item :: (body.items ++ rest.items)

/-- Each entity's markers stand right before and right after the characters it covers. -/
def Placed (start : Nat) : Marked → Prop
  | done => True
  | char c rest => rest.Placed (start + (encodeChar c).length)
  | styled item body rest =>
      item.offset = start ∧ size body.text = item.length ∧ body.Placed start ∧
        rest.Placed item.stop

/-- A text without markers. -/
def plain : List Char → Marked
  | [] => done
  | c :: text => char c (plain text)

def append : Marked → Marked → Marked
  | done, m => m
  | char c rest, m => char c (rest.append m)
  | styled item body rest, m => styled item body (rest.append m)

end Marked

/-- The range is inside the text, between two characters at either end. -/
def Entity.Inside (text : List Char) (item : Entity) : Prop :=
  ∃ before inside after, text = before ++ inside ++ after ∧ size before = item.offset ∧
    size inside = item.length

/-- One range contains the other, or they are disjoint. -/
def Entity.Laminar (a b : Entity) : Prop :=
  a.stop ≤ b.offset ∨ b.stop ≤ a.offset ∨ a.offset ≤ b.offset ∧ b.stop ≤ a.stop ∨
    b.offset ≤ a.offset ∧ a.stop ≤ b.stop

/-- The ranges are disjoint, and neither is an empty one where the other begins. -/
def Entity.Apart (a b : Entity) : Prop :=
  a.offset < b.offset ∧ a.stop ≤ b.offset ∨ b.offset < a.offset ∧ b.stop ≤ a.offset ∨
    a.offset = b.offset ∧ a.length = 0 ∧ b.length = 0

instance : DecidableRel Entity.Laminar := fun a b => by unfold Entity.Laminar; infer_instance

instance : DecidableRel Entity.Apart := fun a b => by unfold Entity.Apart; infer_instance

/-- The rendering returns, taking the markers out of it gives the text, and every
entity has its markers, where no two ranges overlap in part. -/
def Keeps (text : String) (entities : List Entity) : Prop :=
  ∃ out, entitiesToMarkdown text entities = some out ∧
    ∃ m : Marked, m.markdown = out.toList ∧ m.text = text.toList ∧ m.Placed 0 ∧
      (entities.Pairwise Entity.Laminar → m.items.Perm (entities.filter Entity.supported))

/-! ## marked texts -/

namespace Marked

@[simp] theorem text_plain (text : List Char) : (plain text).text = text := by
  induction text with
  | nil => rfl
  | cons c text ih => rw [plain, Marked.text, ih]

@[simp] theorem markdown_plain (text : List Char) : (plain text).markdown = text := by
  induction text with
  | nil => rfl
  | cons c text ih => rw [plain, markdown, ih]

@[simp] theorem items_plain (text : List Char) : (plain text).items = [] := by
  induction text with
  | nil => rfl
  | cons c text ih => rw [plain, items, ih]

theorem placed_plain (text : List Char) (start : Nat) : (plain text).Placed start := by
  induction text generalizing start with
  | nil => trivial
  | cons c text ih => exact ih _

@[simp] theorem text_append (m n : Marked) : (m.append n).text = m.text ++ n.text := by
  induction m with
  | done => rfl
  | char c rest ih => simp [append, Marked.text, ih]
  | styled item body rest _ ih => simp [append, Marked.text, ih]

@[simp] theorem markdown_append (m n : Marked) :
    (m.append n).markdown = m.markdown ++ n.markdown := by
  induction m with
  | done => rfl
  | char c rest ih => simp [append, markdown, ih]
  | styled item body rest _ ih => simp [append, markdown, ih]

@[simp] theorem items_append (m n : Marked) : (m.append n).items = m.items ++ n.items := by
  induction m with
  | done => rfl
  | char c rest ih => simp [append, items, ih]
  | styled item body rest _ ih => simp [append, items, ih]

theorem placed_plain_append {text : List Char} {m : Marked} {start : Nat}
    (h : m.Placed (start + size text)) : ((plain text).append m).Placed start := by
  induction text generalizing start with
  | nil => exact h
  | cons c text ih =>
    refine ih ?_
    rwa [size_cons, ← Nat.add_assoc] at h

/-- How many letters the markers add. -/
def added (items : List Entity) : Nat :=
  (items.map fun item => item.opener.length + item.closer.length).sum

theorem length_markdown (m : Marked) : m.markdown.length = m.text.length + added m.items := by
  induction m with
  | done => rfl
  | char c rest ih =>
    simp only [markdown, Marked.text, items, List.length_cons, ih]
    omega
  | styled item body rest ihbody ihrest =>
    simp only [markdown, Marked.text, items, List.length_append, ihbody, ihrest, added,
      List.map_cons, List.map_append, List.sum_cons, List.sum_append]
    omega

end Marked

/-! ## what the loop writes -/

/-- The ranges the loop renders. -/
def kept : Nat → List Entity → List Entity
  | _, [] => []
  | cursor, item :: ranges =>
      if item.offset < cursor then kept cursor ranges else item :: kept item.stop ranges

theorem kept_sublist (cursor : Nat) (ranges : List Entity) : (kept cursor ranges).Sublist ranges := by
  induction ranges generalizing cursor with
  | nil => exact List.Sublist.slnil
  | cons item ranges ih =>
    rw [kept]
    split
    · exact (ih cursor).cons item
    · exact (ih item.stop).cons_cons item

/-- The loop returns, with the text from the cursor on and the markers of the kept ranges. -/
theorem render_eq {text before after : List Char} {ranges : List Entity}
    (htext : text = before ++ after) (hinside : ∀ item ∈ ranges, item.Inside text) :
    ∃ m : Marked, render (encode text) (size before) ranges = some m.markdown ∧
      m.text = after ∧ m.Placed (size before) ∧ m.items = kept (size before) ranges := by
  induction ranges generalizing before after with
  | nil =>
    refine ⟨.plain after, ?_, by simp, Marked.placed_plain _ _, by simp [kept]⟩
    have hlength : (encode text).length = size before + size after := by
      rw [htext, ← size_append, size]
    have hcut := decode_slice before after []
    rw [List.append_nil, ← htext] at hcut
    rw [render, cut, hlength, hcut, Marked.markdown_plain]
  | cons item ranges ih =>
    rw [render, kept]
    have hrest : ∀ other ∈ ranges, other.Inside text :=
      fun other h => hinside other (List.mem_cons_of_mem item h)
    by_cases hbehind : item.offset < size before
    · rw [if_pos hbehind, if_pos hbehind]
      exact ih htext hrest
    · rw [if_neg hbehind, if_neg hbehind]
      obtain ⟨pre, inside, post, hitem, hpre, hsize⟩ := hinside item List.mem_cons_self
      obtain ⟨between, rfl, hafter⟩ := split_of_size_le
        (htext.symm.trans (by rw [hitem, List.append_assoc])) (by omega : size before ≤ size pre)
      have hstop : item.stop = size (before ++ between ++ inside) := by
        rw [size_append, Entity.stop, hpre, hsize]
      obtain ⟨m, hm, hmtext, hplaced, hitems⟩ := ih hitem hrest
      have hfirst : cut (encode text) (size before) item.offset = some between := by
        have := decode_slice before between (inside ++ post)
        rw [← List.append_assoc, ← hitem, ← size_append, hpre] at this
        exact this
      have hbody : cut (encode text) item.offset item.stop = some inside := by
        have := decode_slice (before ++ between) inside post
        rw [← hitem, hpre, hsize] at this
        exact this
      refine ⟨(Marked.plain between).append (.styled item (.plain inside) m), ?_, ?_, ?_, ?_⟩
      · rw [hfirst, hbody, hstop, hm]
        simp [Marked.markdown]
      · simp [Marked.text, hmtext, hafter]
      · refine Marked.placed_plain_append ⟨?_, by simpa using hsize, Marked.placed_plain _ _, ?_⟩
        · rw [← size_append, hpre]
        · rw [hstop]
          exact hplaced
      · simp [Marked.items, hitems, hstop]

/-! ## which ranges are kept -/

/-- A range that is dropped is missed: every entity with a rendering adds letters. -/
theorem Entity.opener_pos {item : Entity} (h : item.supported = true) :
    0 < item.opener.length := by
  rw [supported, Option.isSome_iff_exists] at h
  obtain ⟨⟨first, last⟩, hmarkers⟩ := h
  rw [opener, hmarkers]
  rw [markers] at hmarkers
  split at hmarkers <;> cases hmarkers <;> simp

theorem Marked.added_cons (item : Entity) (items : List Entity) :
    added (item :: items) = item.opener.length + item.closer.length + added items := by
  rw [added, List.map_cons, List.sum_cons, ← added]

theorem Marked.added_le {l l' : List Entity} (h : l.Sublist l') : added l ≤ added l' := by
  induction h with
  | slnil => exact Nat.le_refl _
  | cons item _ ih =>
    rw [added_cons]
    omega
  | cons_cons item _ ih =>
    rw [added_cons, added_cons]
    omega

theorem Marked.added_perm {l l' : List Entity} (h : l.Perm l') : added l = added l' :=
  (h.map _).sum_nat

theorem eq_of_added_le {l l' : List Entity} (h : l.Sublist l')
    (hsupported : ∀ item ∈ l', item.supported = true)
    (hle : Marked.added l' ≤ Marked.added l) : l = l' := by
  induction h with
  | slnil => rfl
  | cons item hsub _ =>
    have hpos := Entity.opener_pos (hsupported item List.mem_cons_self)
    have := Marked.added_le hsub
    rw [Marked.added_cons] at hle
    omega
  | cons_cons item hsub ih =>
    rw [Marked.added_cons, Marked.added_cons] at hle
    rw [ih (fun other hother => hsupported other (List.mem_cons_of_mem item hother)) (by omega)]

instance : Std.Total Entity.Before where
  total a b := by
    unfold Entity.Before
    omega

instance : IsTrans Entity Entity.Before where
  trans a b c := by
    unfold Entity.Before
    omega

theorem kept_of_apart {ranges : List Entity} {cursor : Nat}
    (hsorted : ranges.Pairwise Entity.Before) (hapart : ranges.Pairwise Entity.Apart)
    (hcursor : ∀ item ∈ ranges, cursor ≤ item.offset) : kept cursor ranges = ranges := by
  induction ranges generalizing cursor with
  | nil => rfl
  | cons item ranges ih =>
    rw [List.pairwise_cons] at hsorted hapart
    have hbegin := hcursor item List.mem_cons_self
    rw [kept, if_neg (by omega), ih hsorted.2 hapart.2 fun other hother => ?_]
    have horder := hsorted.1 other hother
    have := hapart.1 other hother
    simp only [Entity.Before, Entity.Apart, Entity.stop] at *
    omega

theorem apart_of_kept {ranges : List Entity} {cursor : Nat}
    (hsorted : ranges.Pairwise Entity.Before) (h : kept cursor ranges = ranges) :
    ranges.Pairwise Entity.Apart ∧ ∀ item ∈ ranges, cursor ≤ item.offset := by
  induction ranges generalizing cursor with
  | nil => exact ⟨List.Pairwise.nil, fun item hitem => by cases hitem⟩
  | cons item ranges ih =>
    rw [List.pairwise_cons] at hsorted
    rw [kept] at h
    split at h
    · -- a dropped range would be missing
      have := (kept_sublist cursor ranges).length_le
      rw [h, List.length_cons] at this
      omega
    · rename_i hbegin
      obtain ⟨hapart, hafter⟩ := ih hsorted.2 (List.cons.inj h).2
      refine ⟨List.pairwise_cons.mpr ⟨fun other hother => ?_, hapart⟩, fun other hother => ?_⟩
      · have horder := hsorted.1 other hother
        have hstop := hafter other hother
        simp only [Entity.Before, Entity.Apart, Entity.stop] at *
        omega
      · rcases List.mem_cons.mp hother with rfl | hother
        · omega
        · have := hafter other hother
          rw [Entity.stop] at this
          omega

theorem Entity.Apart.symm {a b : Entity} (h : a.Apart b) : b.Apart a := by
  unfold Apart at *
  omega

/-- The loop keeps every range just when no two are nested or overlap. -/
theorem kept_sorted_iff (ranges : List Entity) :
    kept 0 (ranges.insertionSort Entity.Before) = ranges.insertionSort Entity.Before ↔
      ranges.Pairwise Entity.Apart := by
  have hsorted := List.pairwise_insertionSort Entity.Before ranges
  have hperm : (ranges.insertionSort Entity.Before).Pairwise Entity.Apart ↔
      ranges.Pairwise Entity.Apart :=
    (List.perm_insertionSort Entity.Before ranges).pairwise_iff fun h => h.symm
  rw [← hperm]
  constructor
  · intro h
    exact (apart_of_kept hsorted h).1
  · intro h
    exact kept_of_apart hsorted h fun _ _ => Nat.zero_le _

/-! ## the rendering -/

/-- What comes out: the whole text, with the markers of the kept ranges in their places. -/
theorem entitiesToMarkdown_eq {text : String} {entities : List Entity}
    (hinside : ∀ item ∈ entities, item.Inside text.toList) :
    ∃ m : Marked, entitiesToMarkdown text entities = some (String.ofList m.markdown) ∧
      m.text = text.toList ∧ m.Placed 0 ∧
      m.items = kept 0 ((entities.filter Entity.supported).insertionSort Entity.Before) := by
  by_cases hnone : entities.filter Entity.supported = []
  · refine ⟨.plain text.toList, ?_, by simp, Marked.placed_plain _ _, by simp [hnone, kept]⟩
    rw [entitiesToMarkdown, hnone, Marked.markdown_plain, String.ofList_toList]
    rfl
  · have hall : ∀ item ∈ (entities.filter Entity.supported).insertionSort Entity.Before,
        item.Inside text.toList := fun item hitem =>
      hinside item (List.mem_of_mem_filter ((List.mem_insertionSort _).mp hitem))
    obtain ⟨m, hm, hrest⟩ := render_eq (List.nil_append text.toList).symm hall
    rw [size_nil] at hm
    exact ⟨m, by rw [entitiesToMarkdown, if_neg hnone, hm, Option.map_some], hrest⟩

/-- The text is kept whatever the ranges; the styles just when no range is inside
another, nor an empty one at the start of another. -/
theorem keeps_iff_apart (text : String) (entities : List Entity)
    (hinside : ∀ item ∈ entities, item.Inside text.toList) :
    Keeps text entities ↔
      (entities.Pairwise Entity.Laminar → (entities.filter Entity.supported).Pairwise Entity.Apart) := by
  obtain ⟨m, hout, htext, hplaced, hitems⟩ := entitiesToMarkdown_eq hinside
  have hperm := List.perm_insertionSort Entity.Before (entities.filter Entity.supported)
  constructor
  · rintro ⟨out, hout', m', hm', htext', -, hall⟩ hlaminar
    rw [← kept_sorted_iff]
    refine eq_of_added_le (kept_sublist _ _) (fun item hitem => ?_) ?_
    · exact (List.mem_filter.mp (hperm.mem_iff.mp hitem)).2
    · have hlength := m.length_markdown
      have hlength' := m'.length_markdown
      have hsame : m'.markdown = m.markdown := by
        rw [hm', ← Option.some.inj (hout.symm.trans hout'), String.toList_ofList]
      have hadded : Marked.added m'.items =
          Marked.added ((entities.filter Entity.supported).insertionSort Entity.Before) :=
        Marked.added_perm ((hall hlaminar).trans hperm.symm)
      rw [hsame, htext', ← htext] at hlength'
      rw [← hadded, ← hitems]
      omega
  · intro hapart
    refine ⟨_, hout, m, (String.toList_ofList).symm, htext, hplaced, fun hlaminar => ?_⟩
    rw [hitems, (kept_sorted_iff _).mpr (hapart hlaminar)]
    exact hperm

/-- A bold word and a link behind an emoji. -/
theorem keeps_iff_apart_link :
    Keeps "hi 😀 you" [⟨"text_link", 6, 3, some "u"⟩, ⟨"bold", 0, 2, none⟩] := by
  refine (keeps_iff_apart _ _ fun item hitem => ?_).mpr fun _ => by decide +kernel
  simp only [List.mem_cons, List.not_mem_nil, or_false] at hitem
  rcases hitem with rfl | rfl
  · exact ⟨"hi 😀 ".toList, "you".toList, [], by decide +kernel, by decide +kernel, by decide +kernel⟩
  · exact ⟨[], "hi".toList, " 😀 you".toList, by decide +kernel, by decide +kernel, by decide +kernel⟩

/-- An italic word inside a bold sentence is not marked. -/
theorem not_keeps : ¬ Keeps "a b c" [⟨"bold", 0, 5, none⟩, ⟨"italic", 2, 1, none⟩] := by
  rintro ⟨out, hout, m, hm, htext, -, hall⟩
  have hadded := Marked.added_perm (hall (by decide +kernel))
  have hlength := m.length_markdown
  have hout' : out = "**a b c**" :=
    Option.some.inj (hout.symm.trans (by decide +kernel :
      entitiesToMarkdown "a b c" [⟨"bold", 0, 5, none⟩, ⟨"italic", 2, 1, none⟩] = _))
  rw [hm, htext, hadded, hout'] at hlength
  exact absurd hlength (by decide +kernel)

end Telemax.Formatting
