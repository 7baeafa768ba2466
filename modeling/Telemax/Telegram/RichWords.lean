import Telemax.Telegram.RichMessage

/-!
# Telemax.Telegram.RichWords

Which words of a rich post its markdown keeps.  Whatever is put around a text leaves
its visible letters as they are and in their order; what is lost is lost where a node
has more to say than the one field that is rendered.
-/

namespace Telemax.Telegram.RichMessage

/-! ## words -/

/-- The post's own letters that are no white space. -/
def words (text : Text) : Text := text.filter fun l => l.own && !blank l

section
variable {a b text : Text} {parts : List Text}

@[simp] theorem words_nil : words [] = [] := rfl

@[simp] theorem words_append (a b : Text) : words (a ++ b) = words a ++ words b :=
  List.filter_append ..

@[simp] theorem words_put (text : String) : words (put text) = [] := by
  simp [words, put, List.filter_map, Function.comp_def]

theorem words_flatten (parts : List Text) : words parts.flatten = (parts.map words).flatten := by
  rw [words, List.filter_flatten]
  rfl

theorem own_not_blank (l : Letter) : (l.own && !blank l) = true → blank l = false := by
  simp

theorem blank_of_breaks {l : Letter} (h : breaks l = true) : blank l = true := by
  simp only [breaks, blank, isSpace, Bool.or_eq_true, Bool.and_eq_true, decide_eq_true_eq,
    beq_iff_eq] at *
  omega

@[simp] theorem words_strip (text : Text) : words (strip text) = words text :=
  Trim.filter_trim own_not_blank text

@[simp] theorem words_rstrip (text : Text) : words (rstrip text) = words text :=
  Trim.filter_rdropWhile own_not_blank text

@[simp] theorem words_splitlines (text : Text) : words (splitlines text).flatten = words text := by
  refine Lines.filter_splitLines (fun a b h => ?_) (fun l h => ?_) text
  · simp only [paired, Bool.and_eq_true, decide_eq_true_eq] at h
    simp [breaks, h.2]
  · have hblank := own_not_blank l h
    by_contra hbreaks
    rw [blank_of_breaks (by simpa using hbreaks)] at hblank
    cases hblank

theorem words_join (between : String) (parts : List Text) :
    words (join between parts) = words parts.flatten :=
  Lines.filter_intercalate (words_put between) parts

theorem words_joinParts (between : String) (parts : List Text) :
    words (joinParts between parts) = words parts.flatten := by
  rw [joinParts, words_join]
  congr 1
  induction parts with
  | nil => rfl
  | cons part rest ih =>
    cases part with
    | nil => rw [List.filter_cons_of_neg (by simp), ih]; rfl
    | cons l text => rw [List.filter_cons_of_pos (by simp), List.flatten_cons, List.flatten_cons, ih]

theorem words_around (mark : String) (text : Text) : words (around (put mark) text) = words text := by
  unfold around
  split
  · rename_i h; rw [h]
  · simp

/-- What is put in front of each line adds no words. -/
theorem words_map_flatten {f : Text → Text} (h : ∀ line, words (f line) = words line)
    (parts : List Text) : words (parts.map f).flatten = words parts.flatten := by
  rw [words_flatten, words_flatten, List.map_map]
  congr 1
  exact List.map_congr_left fun line _ => h line

theorem words_indent (text : Text) (pre continuation : String) :
    words (indent text (put pre) (put continuation)) = words text := by
  rw [← words_splitlines text, indent]
  split
  · rename_i h; simp [h]
  · rename_i line rest h
    rw [words_join, h, List.flatten_cons, List.flatten_cons, words_append, words_append, words_append,
      words_put, List.nil_append, words_map_flatten (by simp)]

theorem words_quote (text : Text) : words (quote text) = words text := by
  rw [quote, words_join, words_map_flatten, words_splitlines]
  intro line
  split
  · rename_i h; simp [h]
  · simp

theorem words_listItem (text blocks : Text) (checkbox checked : Bool) (pre : String) :
    words (listItem text blocks checkbox checked pre) = words (if text = [] then blocks else text) := by
  rw [listItem, words_rstrip, words_indent]

theorem words_joinBlocks (parts : List Text) : words (joinBlocks parts) = words parts.flatten := by
  rw [joinBlocks, words_joinParts, words_map_flatten words_strip]

end

/-! ## the visible leaves, and what is lost of them -/

def Article.leaves (article : Article) : Text := said article.title ++ said article.description

def Article.whole (article : Article) : Bool :=
  article.title = "" || words (said article.description) = []

mutual

/-- The visible leaves of a node, in the order of the document. -/
def textLeaves : RichText → Text
  | .empty | .image => []
  | .plain text => said text
  | .concat texts => textsLeaves texts
  | .customEmoji alt => said alt
  | .math source => said source
  | .styled _ text | .link _ text _ => textLeaves text
  | .other text texts _ _ inner items =>
      textLeaves text ++ textsLeaves texts ++ blocksLeaves inner ++ blocksLeaves items

def textsLeaves : List RichText → Text
  | [] => []
  | text :: rest => textLeaves text ++ textsLeaves rest

def rowsLeaves : List (List RichText) → Text
  | [] => []
  | cells :: rest => textsLeaves cells ++ rowsLeaves rest

def blockLeaves : Block → Text
  | .nothing | .divider => []
  | .math source => said source
  | .heading _ text | .textual _ text | .preformatted text => textLeaves text
  | .quote text caption => textLeaves text ++ textLeaves caption
  | .quoteBlocks inner caption => blocksLeaves inner ++ textLeaves caption
  | .list items | .orderedList _ items => itemsLeaves items
  | .details title inner => textLeaves title ++ blocksLeaves inner
  | .cover inner => blockLeaves inner
  | .gallery items text credit => blocksLeaves items ++ (textLeaves text ++ textLeaves credit)
  | .embedPost inner text credit _ => blocksLeaves inner ++ (textLeaves text ++ textLeaves credit)
  | .embed _ text credit | .media _ text credit => textLeaves text ++ textLeaves credit
  | .table title rows => textLeaves title ++ rowsLeaves rows
  | .relatedArticles title articles => textLeaves title ++ (articles.map Article.leaves).flatten
  | .other text texts inner items =>
      textLeaves text ++ textsLeaves texts ++ blocksLeaves inner ++ blocksLeaves items

def blocksLeaves : List Block → Text
  | [] => []
  | first :: rest => blockLeaves first ++ blocksLeaves rest

def itemsLeaves : List ListItem → Text
  | [] => []
  | .item text texts inner items _ _ _ _ :: rest =>
      textLeaves text ++ textsLeaves texts ++ blocksLeaves inner ++ blocksLeaves items ++
        itemsLeaves rest

end

mutual

/-- No node has words in a field that is not rendered: of a node of no known type, only its
text is, or else its child texts; of such a block, only its blocks, or else its items, or
else its text; of a list item, its text, or else its blocks; of an article, its title, or
else its description. -/
def textWhole : RichText → Bool
  | .empty | .image | .plain _ | .customEmoji _ | .math _ => true
  | .concat texts => textsWhole texts
  | .styled _ text | .link _ text _ => textWhole text
  | .other text texts _ _ inner items =>
      textWhole text &&
        (if richText text ≠ [] then words (textsLeaves texts) = [] else textsWhole texts) &&
        words (blocksLeaves inner) = [] && words (blocksLeaves items) = []

def textsWhole : List RichText → Bool
  | [] => true
  | text :: rest => textWhole text && textsWhole rest

def rowsWhole : List (List RichText) → Bool
  | [] => true
  | cells :: rest => textsWhole cells && rowsWhole rest

def blockWhole : Block → Bool
  | .nothing | .divider | .math _ => true
  | .heading _ text | .textual _ text | .preformatted text => textWhole text
  | .quote text caption => textWhole text && textWhole caption
  | .quoteBlocks inner caption => blocksWhole inner && textWhole caption
  | .list items | .orderedList _ items => itemsWhole items
  | .details title inner => textWhole title && blocksWhole inner
  | .cover inner => blockWhole inner
  | .gallery items text credit => blocksWhole items && (textWhole text && textWhole credit)
  | .embedPost inner text credit _ => blocksWhole inner && (textWhole text && textWhole credit)
  | .embed _ text credit | .media _ text credit => textWhole text && textWhole credit
  | .table title rows => textWhole title && rowsWhole rows
  | .relatedArticles title articles => textWhole title && articles.all Article.whole
  | .other text texts inner items =>
      (if inner = [] && items = [] then textWhole text else words (textLeaves text) = []) &&
        words (textsLeaves texts) = [] && blocksWhole inner &&
        (if inner ≠ [] then words (blocksLeaves items) = [] else blocksWhole items)

def blocksWhole : List Block → Bool
  | [] => true
  | first :: rest => blockWhole first && blocksWhole rest

def itemsWhole : List ListItem → Bool
  | [] => true
  | .item text texts inner items _ _ _ _ :: rest =>
      textWhole text && words (textsLeaves texts) = [] &&
        (if richText text ≠ [] then words (blocksLeaves inner) = [] else blocksWhole inner) &&
        words (blocksLeaves items) = [] && itemsWhole rest

end

/-- A text says the words of these leaves and no others, and all of them exactly where
nothing is lost. -/
structure Tells (text leaves : Text) (whole : Prop) : Prop where
  sub : (words text).Sublist (words leaves)
  all : words text = words leaves ↔ whole

namespace Tells
variable {a b text la lb leaves : Text} {wa wb whole : Prop}

theorem refl (text : Text) : Tells text text True where
  sub := .refl _
  all := by simp

theorem congr (h : Tells text leaves whole) (ha : words a = words text) : Tells a leaves whole where
  sub := ha ▸ h.sub
  all := ha ▸ h.all

/-- Nothing of the leaves is said. -/
theorem silent (h : words text = []) : Tells text leaves (words leaves = []) where
  sub := by rw [h]; exact List.nil_sublist _
  all := by rw [h, eq_comm]

theorem append (ha : Tells a la wa) (hb : Tells b lb wb) : Tells (a ++ b) (la ++ lb) (wa ∧ wb) where
  sub := by
    rw [words_append, words_append]
    exact ha.sub.append hb.sub
  all := by
    rw [words_append, words_append, ← ha.all, ← hb.all]
    constructor
    · intro heq
      -- neither part is longer than its leaves
      have hlength := congrArg List.length heq
      rw [List.length_append, List.length_append] at hlength
      have hlea := ha.sub.length_le
      have hleb := hb.sub.length_le
      exact ⟨ha.sub.eq_of_length (by omega), hb.sub.eq_of_length (by omega)⟩
    · rintro ⟨heqa, heqb⟩
      rw [heqa, heqb]

theorem iff (h : Tells text leaves wa) (hw : wa ↔ wb) : Tells text leaves wb := propext hw ▸ h

end Tells

theorem tells_article (article : Article) :
    Tells article.markdown article.leaves (article.whole = true) := by
  obtain ⟨title, description, url⟩ := article
  by_cases htitle : title = ""
  · subst htitle
    have hsaid : Tells (said description) (said "" ++ said description) True := .refl _
    refine (hsaid.congr ?_).iff (by simp [Article.whole])
    simp [Article.markdown, words_joinParts]
  · have hsaid : Tells (said title ++ []) (said title ++ said description)
        (True ∧ words (said description) = []) := (Tells.refl _).append (.silent rfl)
    refine (hsaid.congr ?_).iff (by simp [Article.whole, htitle])
    simp [Article.markdown, words_joinParts, htitle]

theorem tells_articles : ∀ articles : List Article,
    Tells (articles.map Article.markdown).flatten (articles.map Article.leaves).flatten
      (articles.all Article.whole = true)
  | [] => (Tells.refl []).iff (by simp)
  | article :: rest => ((tells_article article).append (tells_articles rest)).iff (by simp)

/-- Nothing of it is said. -/
theorem tells_nothing (leaves : Text) : Tells [] leaves (words leaves = []) := .silent rfl

/-- One field is rendered, and another one only where the first comes to nothing. -/
theorem tells_either {first second firstLeaves secondLeaves : Text} {firstWhole secondWhole : Bool}
    (hfirst : Tells first firstLeaves (firstWhole = true))
    (hsecond : Tells second secondLeaves (secondWhole = true)) :
    Tells (if first = [] then second else first) (firstLeaves ++ secondLeaves)
      ((firstWhole && if first ≠ [] then decide (words secondLeaves = []) else secondWhole) = true) := by
  by_cases hempty : first = []
  · have hboth := hfirst.append hsecond
    refine (hboth.congr ?_).iff (by simp [hempty])
    simp [hempty]
  · have hboth := hfirst.append (tells_nothing secondLeaves)
    refine (hboth.congr ?_).iff (by simp [hempty])
    simp [hempty]

mutual

theorem tells_richText : ∀ text : RichText, Tells (richText text) (textLeaves text) (textWhole text = true)
  | .empty => (Tells.refl []).iff (by simp [textWhole])
  | .plain text => (Tells.refl (said text)).iff (by simp [textWhole])
  | .concat texts => tells_richTexts texts
  | .customEmoji alt => (Tells.refl (said alt)).iff (by simp [textWhole])
  | .math source => (Tells.refl (said source)).iff (by simp [textWhole])
  | .image => ((Tells.refl []).congr (by simp [richText])).iff (by simp [textWhole])
  | .styled style text => (tells_richText text).congr (by simp [richText])
  | .link link text target => by
      refine (tells_richText text).congr ?_
      rw [richText]
      split <;> simp
  | .other text texts alt source inner items => by
      have heither := tells_either (tells_richText text) (tells_richTexts texts)
      have hblocks : Tells [] (blocksLeaves inner) (words (blocksLeaves inner) = []) := .silent rfl
      have hitems : Tells [] (blocksLeaves items) (words (blocksLeaves items) = []) := .silent rfl
      refine (((heither.append hblocks).append hitems).congr ?_).iff (by simp [textWhole])
      rw [richText]
      by_cases hinner : richText text = []
      · by_cases htexts : texts = []
        · by_cases halt : alt = "" <;> simp [hinner, htexts, halt, richTexts]
        · simp [hinner, htexts]
      · simp [hinner]

theorem tells_richTexts : ∀ texts : List RichText,
    Tells (richTexts texts).flatten (textsLeaves texts) (textsWhole texts = true)
  | [] => (Tells.refl []).iff (by simp [textsWhole])
  | text :: rest =>
    ((tells_richText text).append (tells_richTexts rest)).iff (by simp [textsWhole])

theorem tells_rows : ∀ rows : List (List RichText),
    Tells (rowTexts rows).flatten (rowsLeaves rows) (rowsWhole rows = true)
  | [] => (Tells.refl []).iff (by simp [rowsWhole])
  | cells :: rest =>
    (((tells_richTexts cells).congr (words_join " | " (richTexts cells))).append
      (tells_rows rest)).iff (by simp [rowsWhole])

end

theorem tells_caption (text credit : RichText) :
    Tells (caption (richText text) (richText credit)) (textLeaves text ++ textLeaves credit)
      ((textWhole text && textWhole credit) = true) :=
  (((tells_richText text).append (tells_richText credit)).congr
    (by simp [caption, words_joinParts])).iff (by simp)

/-- An item, given what its blocks come to. -/
theorem tells_item (text : RichText) (texts : List RichText) {inner : List Block}
    (items : List Block) (checkbox checked : Bool) (pre : String)
    (hinner : Tells (blocks inner).flatten (blocksLeaves inner) (blocksWhole inner = true)) :
    Tells (listItem (richText text) (joinBlocks (blocks inner)) checkbox checked pre)
      (textLeaves text ++ textsLeaves texts ++ blocksLeaves inner ++ blocksLeaves items)
      ((textWhole text && words (textsLeaves texts) = [] &&
        (if richText text ≠ [] then decide (words (blocksLeaves inner) = []) else blocksWhole inner) &&
        words (blocksLeaves items) = []) = true) := by
  have htexts := (tells_richText text).append (tells_nothing (textsLeaves texts))
  by_cases hempty : richText text = []
  · have hall := (htexts.append hinner).append (tells_nothing (blocksLeaves items))
    refine (hall.congr ?_).iff (by simp [hempty])
    simp [words_listItem, hempty, words_joinBlocks]
  · have hall := (htexts.append (tells_nothing (blocksLeaves inner))).append
      (tells_nothing (blocksLeaves items))
    refine (hall.congr ?_).iff (by simp [hempty])
    simp [words_listItem, hempty]

mutual

theorem tells_block : ∀ b : Block, Tells (block b) (blockLeaves b) (blockWhole b = true)
  | .nothing => (Tells.refl []).iff (by simp [blockWhole])
  | .divider => ((Tells.refl []).congr (by simp [block])).iff (by simp [blockWhole])
  | .math source => (Tells.refl (said source)).iff (by simp [blockWhole])
  | .heading heading text => (tells_richText text).congr (by simp [block, words_around])
  | .textual textual text => tells_richText text
  | .preformatted text => by
      refine (tells_richText text).congr ?_
      rw [block]
      split
      · rename_i h; simp [h]
      · simp
  | .quote text caption =>
      (((tells_richText text).append (tells_richText caption)).congr
        (by simp [block, words_quote, words_joinParts])).iff (by simp [blockWhole])
  | .quoteBlocks inner caption =>
      (((tells_blocks inner).append (tells_richText caption)).congr
        (by simp [block, words_quote, words_joinParts, words_joinBlocks])).iff (by simp [blockWhole])
  | .list items => (tells_listItems items).congr (by simp [block, words_join])
  | .orderedList start items =>
      (tells_numberedItems (if start = 0 then 1 else start) 0 items).congr
        (by simp [block, words_join])
  | .details title inner =>
      (((tells_richText title).append (tells_blocks inner)).congr
        (by simp [block, words_around, words_joinParts, words_joinBlocks])).iff (by simp [blockWhole])
  | .cover inner => tells_block inner
  | .gallery items text credit =>
      (((tells_blocks items).append (tells_caption text credit)).congr
        (by simp [block, words_joinParts, words_joinBlocks])).iff (by simp [blockWhole])
  | .embedPost inner text credit url =>
      (((tells_blocks inner).append (tells_caption text credit)).congr
        (by simp [block, words_joinParts, words_joinBlocks])).iff (by simp [blockWhole])
  | .embed url text credit =>
      (tells_caption text credit).congr (by simp [block, words_joinParts])
  | .table title rows =>
      (((tells_richText title).append (tells_rows rows)).congr
        (by simp [block, words_joinParts])).iff (by simp [blockWhole])
  | .relatedArticles title articles =>
      (((tells_richText title).append (tells_articles articles)).congr
        (by simp [block, words_joinParts])).iff (by simp [blockWhole])
  | .media media text credit =>
      (tells_caption text credit).congr (by simp [block, words_joinParts])
  | .other text texts inner items => by
      have hsilent := (tells_nothing (textLeaves text)).append (tells_nothing (textsLeaves texts))
      have hinner := tells_blocks inner
      by_cases hblocks : inner = []
      · by_cases hitems : items = []
        · have hall := ((tells_richText text).append (tells_nothing (textsLeaves texts))).append hinner
          refine ((hall.append (tells_blocks items)).congr ?_).iff ?_
          · simp [block, hblocks, hitems, blocks]
          · simp [blockWhole, hblocks, hitems]
        · refine (((hsilent.append hinner).append (tells_blocks items)).congr ?_).iff ?_
          · simp [block, hblocks, hitems, blocks, words_joinBlocks]
          · simp [blockWhole, hblocks, hitems]
      · refine (((hsilent.append hinner).append (tells_nothing (blocksLeaves items))).congr ?_).iff ?_
        · simp [block, hblocks, words_joinBlocks]
        · simp [blockWhole, hblocks]

theorem tells_blocks : ∀ inner : List Block,
    Tells (blocks inner).flatten (blocksLeaves inner) (blocksWhole inner = true)
  | [] => (Tells.refl []).iff (by simp [blocksWhole])
  | first :: rest => ((tells_block first).append (tells_blocks rest)).iff (by simp [blocksWhole])

theorem tells_listItems : ∀ items : List ListItem,
    Tells (listItems items).flatten (itemsLeaves items) (itemsWhole items = true)
  | [] => (Tells.refl []).iff (by simp [itemsWhole])
  | .item text texts inner items checkbox checked num value :: rest => by
      have hitem := tells_item text texts items checkbox checked "• " (tells_blocks inner)
      exact (hitem.append (tells_listItems rest)).iff (by simp [itemsWhole])

theorem tells_numberedItems (start : Int) (index : Nat) : ∀ items : List ListItem,
    Tells (numberedItems start index items).flatten (itemsLeaves items) (itemsWhole items = true)
  | [] => (Tells.refl []).iff (by simp [itemsWhole])
  | .item text texts inner items checkbox checked num value :: rest => by
      have hitem := tells_item text texts items checkbox checked
        (itemNumber num value start index ++ ". ") (tells_blocks inner)
      exact (hitem.append (tells_numberedItems start (index + 1) rest)).iff (by simp [itemsWhole])

end

/-! ## the whole post -/

/-- The markdown has every visible letter of the post that is no white space, as a letter of
the post's own and in the order of the document. -/
def KeepsWords (message : List Block) : Prop :=
  (words (blocksLeaves message)).Sublist (richMessage message)

theorem words_richMessage (message : List Block) :
    words (richMessage message) = words (blocks message).flatten := by
  rw [richMessage, words_strip, words_joinBlocks]

/-- No words are lost exactly where no node has words in a field that is not rendered. -/
theorem keepsWords_iff_whole (message : List Block) :
    KeepsWords message ↔ blocksWhole message = true := by
  have htells := tells_blocks message
  rw [← htells.all, ← words_richMessage]
  constructor
  · intro h
    have hwords : (words (blocksLeaves message)).Sublist (words (richMessage message)) := by
      have := h.filter fun l => l.own && !blank l
      rwa [show (words (blocksLeaves message)).filter _ = words (blocksLeaves message) from
        List.filter_filter.trans (by simp [words])] at this
    rw [words_richMessage] at hwords ⊢
    exact htells.sub.antisymm hwords
  · intro h
    rw [KeepsWords, ← h]
    exact List.filter_sublist

/-- An article with a title and a description. -/
def announced : List Block :=
  [.relatedArticles .empty [{ title := "a", description := "b", url := "c" }]]

/-- A list item of a new kind, with a text and blocks, and a new kind of block, with a text and
blocks. -/
def novel : List Block :=
  [.list [.item (.plain "a") [] [.textual .paragraph (.plain "b")] [] false false "" 0],
    .other (.plain "c") [] [.textual .paragraph (.plain "d")] []]

/-- The description is nowhere in the markdown. -/
theorem not_keepsWords : ¬ KeepsWords announced ∧ markdown announced = "a — c" ∧
    ¬ KeepsWords novel ∧ markdown novel = "• a\n\nd" := by
  refine ⟨?_, by decide +kernel, ?_, by decide +kernel⟩
  · rw [keepsWords_iff_whole]
    decide +kernel
  · rw [keepsWords_iff_whole]
    decide +kernel

end Telemax.Telegram.RichMessage
