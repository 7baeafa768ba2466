import Telemax.Config.Writer

/-!
# Telemax.Config.Edits

Config edits touch exactly what they name.  A value is set on the section's own child
of that key, or on a line put in its place, and a bridge is removed with the lines of its
own entry: exactly when what the lines begin with leads the writer there
(`edits_iff_fair`).
-/

namespace Telemax.Config

open First (first parts first_eq_some_iff)

/-! ## the lines of a text -/

def OneLine (line : Line) : Prop := ∀ c ∈ line, breaks c = false

theorem breaks_of_paired (a b : Char) (h : paired a b = true) : breaks b = true := by
  simp only [paired, Bool.and_eq_true, decide_eq_true_eq] at h
  rw [h.2]
  decide

theorem oneLine_of_mem (text : Text) {line : Line} (h : line ∈ splitlines text) : OneLine line :=
  fun _ => Lines.breaks_of_mem_splitLines breaks_of_paired h

theorem splitlines_join {lines : List Line} (hne : lines ≠ []) (h : ∀ line ∈ lines, OneLine line) :
    splitlines (join lines ++ ['\n']) = lines :=
  Lines.splitLines_intercalate (by decide) (fun _ => rfl) hne h

/-- The lines that are not blank. -/
def said (lines : List Line) : List Line := lines.filter (!isBlank ·)

@[simp] theorem said_append (a b : List Line) : said (a ++ b) = said a ++ said b :=
  List.filter_append ..

theorem said_cons {line : Line} (h : isBlank line = false) (rest : List Line) :
    said (line :: rest) = line :: said rest := by
  simp [said, h]

theorem said_eq_nil_iff {lines : List Line} : said lines = [] ↔ ∀ line ∈ lines, isBlank line = true := by
  simp [said]

/-- Empty lines at the end are all that is lost. -/
theorem said_splitlines_rstrip {lines : List Line} (h : ∀ line ∈ lines, OneLine line) :
    said (splitlines ((join lines).rdropWhile (· = '\n') ++ ['\n'])) = said lines := by
  have hnl : ∀ line ∈ lines, '\n' ∉ line := fun line hline hmem => by
    have hbreak := h line hline _ hmem
    revert hbreak
    decide
  rw [join, Lines.rdropWhile_intercalate hnl, ← join]
  have hkept : said (lines.rdropWhile (· = [])) = said lines :=
    Trim.filter_rdropWhile (fun line hline => by
      cases line with
      | nil => cases hline
      | cons => rfl) lines
  by_cases hnil : lines.rdropWhile (· = []) = []
  · rw [← hkept, hnil]
    rfl
  · rw [splitlines_join hnil fun line hline => h line ((List.rdropWhile_prefix _ _).mem hline), hkept]

/-! ## one value -/

/-- What `set_config_value` is for. -/
def SetsOne (text name key value : List Char) : Prop :=
  match setEdit name key (splitlines text), setConfigValue text name key value with
  | none, none => ∀ line ∈ splitlines text, ¬ Heads name line
  | some edit, some result =>
      splitlines text = edit.before ++ edit.old.toList ++ edit.after ∧
      splitlines result = edit.before ++ newLine key value :: edit.after ∧
      OwnChild name key edit.before (newLine key value) edit.after ∧
      ∀ old ∈ edit.old, OwnChild name key edit.before old edit.after
  | _, _ => False

/-- What the lines begin with leads to the child, or to a place for it. -/
def SetFair (text name key value : List Char) : Prop :=
  match findPart name (splitlines text) with
  | none => ∀ line ∈ splitlines text, ¬ Heads name line
  | some part =>
      OneLine (newLine key value) ∧ keyOf (newLine key value) = some key ∧
      match first (begins key) part.body with
      | some hit =>
          OwnChild name key (part.before ++ part.header :: hit.before) hit.found
            (hit.after ++ part.after) ∧
          InPlace name key (indentOf (newLine key value)) (part.before ++ part.header :: hit.before)
            (hit.after ++ part.after)
      | none =>
          InPlace name key (indentOf (newLine key value))
            (part.before ++ part.header :: part.body.rdropWhile isBlank)
            (part.body.rtakeWhile isBlank ++ part.after)

theorem indentOf_newLine_pos (key value : List Char) : 0 < indentOf (newLine key value) := by
  simp [indentOf, newLine]

theorem findPart_lines {name : List Char} {lines : List Line} {part : Part}
    (h : findPart name lines = some part) :
    lines = part.before ++ part.header :: (part.body ++ part.after) := by
  obtain ⟨hit, hhit, rfl⟩ := Option.map_eq_some_iff.mp h
  rw [List.takeWhile_append_dropWhile]
  exact (first_eq_some_iff.mp hhit).1

theorem findPart_header {name : List Char} {lines : List Line} {part : Part}
    (h : findPart name lines = some part) :
    isTopLevel part.header = true ∧ begins name part.header = true := by
  obtain ⟨hit, hhit, rfl⟩ := Option.map_eq_some_iff.mp h
  have hfound := (first_eq_some_iff.mp hhit).2.1
  rwa [Bool.and_eq_true] at hfound

/-- The lines around the change are the text's own. -/
theorem setEdit_lines {name key : List Char} {lines : List Line} {edit : Edit}
    (h : setEdit name key lines = some edit) :
    lines = edit.before ++ edit.old.toList ++ edit.after := by
  obtain ⟨part, hpart, hedit⟩ := Option.map_eq_some_iff.mp h
  rw [findPart_lines hpart]
  cases hfirst : first (begins key) part.body with
  | some hit =>
    rw [hfirst] at hedit
    subst hedit
    rw [(first_eq_some_iff.mp hfirst).1]
    simp
  | none =>
    rw [hfirst] at hedit
    subst hedit
    have hbody : part.body.rdropWhile isBlank ++ part.body.rtakeWhile isBlank = part.body :=
      List.rdropWhile_append_rtakeWhile
    calc part.before ++ part.header :: (part.body ++ part.after)
      _ = part.before ++ part.header ::
            (part.body.rdropWhile isBlank ++ part.body.rtakeWhile isBlank ++ part.after) := by rw [hbody]
      _ = _ := by simp only [List.append_assoc, List.cons_append, Option.toList, List.nil_append]

/-- The text that is written has the new line where it was put, if it is one line. -/
theorem splitlines_setConfigValue {text name key : List Char} (value : List Char) {edit : Edit}
    (h : setEdit name key (splitlines text) = some edit) :
    splitlines (join (edit.before ++ newLine key value :: edit.after) ++ ['\n']) =
      edit.before ++ newLine key value :: edit.after ↔ OneLine (newLine key value) := by
  constructor
  · intro heq
    refine oneLine_of_mem (join (edit.before ++ newLine key value :: edit.after) ++ ['\n']) ?_
    rw [heq]
    simp
  · intro hone
    refine splitlines_join (by simp) fun line hline => ?_
    rcases List.mem_append.mp hline with hline | hline
    · refine oneLine_of_mem text ?_
      rw [setEdit_lines h]
      simp [hline]
    · rcases List.mem_cons.mp hline with rfl | hline
      · exact hone
      · refine oneLine_of_mem text ?_
        rw [setEdit_lines h]
        simp [hline]

theorem ownChild_newLine {name key value : List Char} {before after : List Line} :
    OwnChild name key before (newLine key value) after ↔
      keyOf (newLine key value) = some key ∧
        InPlace name key (indentOf (newLine key value)) before after :=
  ⟨fun h => ⟨h.keyed, h.place⟩, fun h => ⟨h.2, indentOf_newLine_pos key value, h.1⟩⟩

theorem setsOne_iff (text name key value : List Char) :
    SetsOne text name key value ↔ SetFair text name key value := by
  cases hpart : findPart name (splitlines text) with
  | none => simp [SetsOne, SetFair, setConfigValue, setEdit, hpart]
  | some part =>
    cases hfirst : first (begins key) part.body with
    | some hit =>
      have hedit : setEdit name key (splitlines text) =
          some ⟨part.before ++ part.header :: hit.before, some hit.found, hit.after ++ part.after⟩ := by
        simp [setEdit, hpart, hfirst]
      have hlines := setEdit_lines hedit
      have hresult := splitlines_setConfigValue value hedit
      simp only [SetsOne, SetFair, setConfigValue, hedit, hpart, hfirst, Option.map_some]
      simp only [ownChild_newLine, hresult]
      constructor
      · rintro ⟨-, hone, ⟨hkey, hplace⟩, hold⟩
        exact ⟨hone, hkey, hold _ rfl, hplace⟩
      · rintro ⟨hone, hkey, hold, hplace⟩
        refine ⟨hlines, hone, ⟨hkey, hplace⟩, fun old hmem => ?_⟩
        cases hmem
        exact hold
    | none =>
      have hedit : setEdit name key (splitlines text) =
          some ⟨part.before ++ part.header :: part.body.rdropWhile isBlank, none,
            part.body.rtakeWhile isBlank ++ part.after⟩ := by
        simp [setEdit, hpart, hfirst]
      have hlines := setEdit_lines hedit
      have hresult := splitlines_setConfigValue value hedit
      simp only [SetsOne, SetFair, setConfigValue, hedit, hpart, hfirst, Option.map_some]
      simp only [ownChild_newLine, hresult]
      constructor
      · rintro ⟨-, hone, ⟨hkey, hplace⟩, -⟩
        exact ⟨hone, hkey, hplace⟩
      · rintro ⟨hone, hkey, hplace⟩
        exact ⟨hlines, hone, ⟨hkey, hplace⟩, fun old hmem => by cases hmem⟩

/-! ## one bridge -/

/-- The entry of the section `bridges` whose own name is `name`. -/
structure Named (name : List Char) (depth : Nat) (outside : List Line) (header : Line)
    (lead entry rest beyond : List Line) : Prop where
  listed : EntryOf "bridges".toList depth outside header lead entry rest beyond
  named : ownName entry = some name

/-- No other entry stands before it or after it. -/
def Sole (lead rest : List Line) : Prop := ∀ line ∈ lead ++ rest, isContent line = false

def NoBridge (lines : List Line) (name : List Char) : Prop :=
  ∀ depth outside header lead entry rest beyond,
    lines = outside ++ header :: (lead ++ entry ++ rest ++ beyond) →
      ¬ Named name depth outside header lead entry rest beyond

/-- The lines of the entry are taken out, and the key where there is no other entry. -/
def TakesOut (cut : Cut) (outside : List Line) (header : Line) (lead entry rest : List Line) : Prop :=
  (Sole lead rest ∧ said cut.before = said outside ∧ said cut.removed = said (header :: entry)) ∨
  (¬ Sole lead rest ∧ said cut.before = said (outside ++ header :: lead) ∧
    said cut.removed = said entry)

/-- What `remove_config_bridge` is for: which of the blank lines around them go with the lines
that say something is left open. -/
def RemovesEntry (text name : List Char) : Prop :=
  match removal name (splitlines text), removeConfigBridge text name with
  | none, none => NoBridge (splitlines text) name
  | some cut, some result =>
      splitlines text = cut.before ++ cut.removed ++ cut.after ∧
      said (splitlines result) = said (cut.before ++ cut.after) ∧
      ∃ depth outside header lead entry rest beyond,
        splitlines text = outside ++ header :: (lead ++ entry ++ rest ++ beyond) ∧
          Named name depth outside header lead entry rest beyond ∧
          TakesOut cut outside header lead entry rest
  | _, _ => False

/-- The block that is found is the entry's own lines and blank ones.  Where there is no other
block, the section has no other entry and no line but those. -/
def RemoveFair (text name : List Char) : Prop :=
  match findPart "bridges".toList (splitlines text) with
  | none => NoBridge (splitlines text) name
  | some part =>
      let blocks := parts dashed part.body
      match first (fun block => entryName block = some name) blocks.2 with
      | none => NoBridge (splitlines text) name
      | some hit =>
          if blocks.2.length = 1 then
            ∃ depth lead entry blanks rest beyond,
              part.body = lead ++ entry ++ blanks ∧ (∀ line ∈ lead ++ blanks, isBlank line = true) ∧
              blanks ++ part.after = rest ++ beyond ∧ Sole lead rest ∧
              Named name depth part.before part.header lead entry rest beyond
          else
            ∃ depth outside header lead entry blanks rest beyond,
              part.before ++ part.header :: (blocks.1 ++ hit.before.flatten) =
                outside ++ header :: lead ∧
              hit.found = entry ++ blanks ∧ (∀ line ∈ blanks, isBlank line = true) ∧
              blanks ++ (hit.after.flatten ++ part.after) = rest ++ beyond ∧ ¬ Sole lead rest ∧
              Named name depth outside header lead entry rest beyond

theorem removal_lines {name : List Char} {lines : List Line} {cut : Cut}
    (h : removal name lines = some cut) : lines = cut.before ++ cut.removed ++ cut.after := by
  obtain ⟨part, hpart, hcut⟩ := Option.bind_eq_some_iff.mp h
  obtain ⟨hit, hhit, hcut⟩ := Option.map_eq_some_iff.mp hcut
  rw [findPart_lines hpart]
  split at hcut
  · subst hcut
    have hbefore : part.before.rdropWhile isBlank ++ part.before.rtakeWhile isBlank = part.before :=
      List.rdropWhile_append_rtakeWhile
    calc part.before ++ part.header :: (part.body ++ part.after)
      _ = (part.before.rdropWhile isBlank ++ part.before.rtakeWhile isBlank) ++
            part.header :: (part.body ++ part.after) := by rw [hbefore]
      _ = _ := by simp only [List.append_assoc, List.cons_append]
  · subst hcut
    have hbody := First.parts_flatten dashed part.body
    rw [(first_eq_some_iff.mp hhit).1] at hbody
    calc part.before ++ part.header :: (part.body ++ part.after)
      _ = part.before ++ part.header :: ((parts dashed part.body).1 ++
            (hit.before ++ hit.found :: hit.after).flatten ++ part.after) := by rw [hbody]
      _ = _ := by simp

/-- The text that is written has the lines that are kept. -/
theorem removesEntry_of_removal {text name : List Char} {cut : Cut}
    (h : removal name (splitlines text) = some cut) :
    RemovesEntry text name ↔
      ∃ depth outside header lead entry rest beyond,
        splitlines text = outside ++ header :: (lead ++ entry ++ rest ++ beyond) ∧
          Named name depth outside header lead entry rest beyond ∧
          TakesOut cut outside header lead entry rest := by
  have hlines := removal_lines h
  have hkept : ∀ line ∈ cut.before ++ cut.after, OneLine line := fun line hline => by
    refine oneLine_of_mem text ?_
    rw [hlines]
    rcases List.mem_append.mp hline with hline | hline <;> simp [hline]
  simp only [RemovesEntry, removeConfigBridge, h, Option.map_some]
  exact ⟨fun hremoves => hremoves.2.2, fun htakes => ⟨hlines, said_splitlines_rstrip hkept, htakes⟩⟩

theorem isBlank_of_isContent {line : Line} (h : isContent line = true) : isBlank line = false := by
  simp only [isContent, Bool.and_eq_true, Bool.not_eq_true'] at h
  exact h.1

theorem isContent_of_isItem {line : Line} (h : isItem line = true) : isContent line = true := by
  simp only [isItem, Bool.and_eq_true] at h
  exact h.1

theorem isContent_of_isHeader {line : Line} (h : isHeader line = true) : isContent line = true := by
  simp only [isHeader, Bool.and_eq_true] at h
  exact h.1.1

/-- A line with a letter in it is not blank. -/
theorem isBlank_of_mem {line : Line} {c : Char} (hc : c ∈ line) (h : isSpace c = false) :
    isBlank line = false := by
  simp only [isBlank, List.all_eq_false]
  exact ⟨c, hc, by simp [h]⟩

theorem isBlank_of_dashed {line : Line} (h : dashed line = true) : isBlank line = false := by
  have hmem : '-' ∈ lstrip line := (List.isPrefixOf_iff_prefix.mp h).mem (by simp)
  exact isBlank_of_mem ((List.dropWhile_sublist _).mem hmem) (by decide)

theorem isBlank_of_isTopLevel {line : Line} (h : isTopLevel line = true) : isBlank line = false := by
  cases line with
  | nil => cases h
  | cons c line =>
    simp only [isTopLevel, Bool.and_eq_true, List.head?_cons, Option.any_some] at h
    exact isBlank_of_mem List.mem_cons_self (by simpa using h.1)

/-! ### a key line and a dash -/

theorem head_lstrip_of_dashed {line : Line} (h : dashed line = true) :
    (lstrip line).head? = some '-' := by
  obtain ⟨rest, hrest⟩ := List.isPrefixOf_iff_prefix.mp h
  rw [← hrest]
  rfl

theorem head_strip_of_begins (c : Char) (word : List Char) {line : Line}
    (h : begins (c :: word) line = true) : (strip line).head? = some c := by
  obtain ⟨rest, hrest⟩ := List.isPrefixOf_iff_prefix.mp h
  rw [← hrest]
  rfl

theorem head_lstrip_cons {c : Char} (hc : isSpace c = false) (text : List Char) :
    (lstrip (c :: text)).head? = some c := by
  rw [lstrip, List.dropWhile_cons_of_neg (by simp [hc])]
  rfl

theorem drop_indentOf (line : Line) : line.drop (indentOf line) = line.dropWhile (· = ' ') := by
  have hline : line.takeWhile (· = ' ') ++ line.dropWhile (· = ' ') = line :=
    List.takeWhile_append_dropWhile
  nth_rewrite 2 [← hline]
  exact List.drop_left

theorem lstrip_indented (line : Line) : lstrip line = lstrip (line.drop (indentOf line)) := by
  rw [drop_indentOf]
  induction line with
  | nil => rfl
  | cons c line ih =>
    by_cases hc : c = ' '
    · subst hc
      rw [List.dropWhile_cons_of_pos (by simp), ← ih, lstrip, List.dropWhile_cons_of_pos (by decide)]
      rfl
    · rw [List.dropWhile_cons_of_neg (by simpa using hc)]

/-- The dash of an item is its first letter. -/
theorem head_lstrip_of_isItem {line : Line} (h : isItem line = true) :
    (lstrip line).head? = some '-' := by
  simp only [isItem, Bool.and_eq_true] at h
  have hitem := h.2
  rw [lstrip_indented]
  rw [itemText] at hitem
  split at hitem
  · rename_i text hdrop
    rw [hdrop]
    rfl
  · cases hitem

/-- No item begins with the key. -/
theorem not_isItem_of_begins {line : Line} (h : begins "bridges".toList line = true) :
    isItem line = false := by
  cases hitem : isItem line with
  | false => rfl
  | true =>
    have hhead := head_strip_of_begins 'b' "ridges".toList h
    rw [strip, Trim.head_trim, ← lstrip, head_lstrip_of_isItem hitem] at hhead
    cases hhead

/-- A plain key begins as the text does. -/
theorem head_plainKey {c : Char} {text : List Char} {read : List Char × List Char}
    (h : plainKey (c :: text) = some read) : ∀ d ∈ read.1.head?, d = c := by
  rw [plainKey] at h
  split at h
  · cases h
    rintro d ⟨⟩
  · obtain ⟨rest, -, rfl⟩ := Option.map_eq_some_iff.mp h
    rintro d ⟨⟩
    rfl

theorem head_readKey {c : Char} {text : List Char} {read : List Char × List Char}
    (hc : c = '&' ∨ c = '!' ∨ c = '"' ∨ c = '\'' → False)
    (h : readKey (c :: text) = some read) : ∀ d ∈ read.1.head?, d = c := by
  have huntagged : untagged (c :: text) = c :: text := by
    rw [untagged, if_neg]
    rintro (heq | heq)
    · exact hc (.inl (Option.some.inj heq))
    · exact hc (.inr (.inl (Option.some.inj heq)))
  rw [readKey, huntagged, huntagged] at h
  split at h
  · rename_i heq
    exact absurd (.inr (.inr (.inl (List.cons.inj heq).1))) hc
  · rename_i heq
    exact absurd (.inr (.inr (.inr (List.cons.inj heq).1))) hc
  · obtain ⟨plain, hplain, rfl⟩ := Option.map_eq_some_iff.mp h
    intro d hd
    refine head_plainKey hplain d ?_
    obtain ⟨tail, htail⟩ := List.rdropWhile_prefix white plain.1
    rw [← htail, List.head?_append]
    simp only [Option.mem_def] at hd
    rw [List.rdropWhile, hd]
    rfl

/-- The key's line is none of the writer's items. -/
theorem not_dashed_of_heads {line : Line} (h : Heads "bridges".toList line) : dashed line = false := by
  cases hdashed : dashed line with
  | false => rfl
  | true =>
    have hhead := head_lstrip_of_dashed hdashed
    rw [lstrip_indented] at hhead
    have hkey := h.2
    rw [keyOf] at hkey
    split at hkey
    · obtain ⟨read, hread, hname⟩ := Option.map_eq_some_iff.mp hkey
      cases hline : line.drop (indentOf line) with
      | nil =>
        rw [hline] at hhead
        cases hhead
      | cons c text =>
        rw [hline] at hread hhead
        by_cases hc : c = '&' ∨ c = '!' ∨ c = '"' ∨ c = '\''
        · rcases hc with rfl | rfl | rfl | rfl <;>
            · rw [head_lstrip_cons (by decide)] at hhead
              cases hhead
        · have hb : 'b' = c := head_readKey hc hread 'b' (by rw [hname]; rfl)
          subst hb
          rw [head_lstrip_cons (by decide)] at hhead
          cases hhead
    · cases hkey

theorem said_entry {depth : Nat} {lead entry rest : List Line} (h : Entry depth lead entry rest) :
    ∃ dash below, entry = dash :: below ∧ isBlank dash = false ∧
      ∀ line ∈ entry.getLast?, (!isBlank line) = true := by
  obtain ⟨dash, below, rfl⟩ := List.exists_cons_of_ne_nil h.holds
  refine ⟨dash, below, rfl, isBlank_of_isContent (isContent_of_isItem (h.dash dash rfl).1), ?_⟩
  intro line hline
  have hloose := h.last line hline
  simp only [loose, Bool.or_eq_false_iff] at hloose
  simp [hloose.1]

theorem isBlank_of_heads {name : List Char} {line : Line} (h : Heads name line) :
    isBlank line = false :=
  isBlank_of_isContent (isContent_of_isHeader h.1)

/-! ### the lines that are taken out -/

section
variable {lines : List Line} {name : List Char} {part : Part}

/-- The place of the first line of `a` is that of the first line of `b`. -/
theorem before_eq {a b r s : List Line} {x y : Line} (hlist : a ++ x :: r = b ++ y :: s)
    (hx : isBlank x = false) (hy : isBlank y = false) (hsaid : said a = said b) :
    a = b ∧ x = y ∧ r = s := by
  have ha : a = b := First.before_eq_of_filter_eq (p := fun line => !isBlank line) hlist
    (by simp [hx]) (by simp [hy]) hsaid
  subst ha
  exact ⟨rfl, List.cons.inj (List.append_cancel_left hlist)⟩

/-- The lines that are taken out with the key are those of the entry, and blank ones. -/
theorem body_of_said {depth : Nat} {body after lead entry rest : List Line}
    (hentry : Entry depth lead entry rest) (hsole : Sole lead rest) {beyond : List Line}
    (hlist : body ++ after = lead ++ entry ++ rest ++ beyond) (hsaid : said body = said entry) :
    ∃ blanks, body = lead ++ entry ++ blanks ∧ ∀ line ∈ lead ++ blanks, isBlank line = true := by
  obtain ⟨dash, below, hdash, hblank, hlast⟩ := said_entry hentry
  have hitem : isItem dash = true := (hentry.dash dash (by rw [hdash]; rfl)).1
  have hlead : said lead = [] := by
    cases hfirst : said lead with
    | nil => rfl
    | cons comment others =>
      -- a comment in front would be the first line that is taken out
      have hmem : comment ∈ lead := (List.mem_filter.mp (hfirst ▸ List.mem_cons_self)).1
      have hcontent := hsole comment (List.mem_append_left _ hmem)
      have heq := congrArg said hlist
      simp only [said_append, hfirst, hsaid, hdash, said_cons hblank, List.cons_append] at heq
      rw [← (List.cons.inj heq).1, isContent_of_isItem hitem] at hcontent
      cases hcontent
  have hboth : said body = said (lead ++ entry) := by rw [said_append, hlead, hsaid, List.nil_append]
  obtain ⟨blanks, hbody, hblanks⟩ :=
    First.append_of_filter_eq (p := fun line => !isBlank line) (b := lead ++ entry)
      (s := rest ++ beyond) (by rw [hlist]; simp only [List.append_assoc])
      (by rwa [List.getLast?_append_of_ne_nil _ hentry.holds]) hboth
  refine ⟨blanks, hbody, fun line hline => ?_⟩
  rcases List.mem_append.mp hline with hline | hline
  · exact said_eq_nil_iff.mp hlead line hline
  · simpa using hblanks line hline

/-- The key and its whole body are taken out. -/
theorem takesOut_section (hpart : findPart "bridges".toList lines = some part) :
    (∃ depth outside header lead entry rest beyond,
      lines = outside ++ header :: (lead ++ entry ++ rest ++ beyond) ∧
        Named name depth outside header lead entry rest beyond ∧
        TakesOut ⟨part.before.rdropWhile isBlank,
          part.before.rtakeWhile isBlank ++ part.header :: part.body, part.after⟩
          outside header lead entry rest) ↔
    ∃ depth lead entry blanks rest beyond,
      part.body = lead ++ entry ++ blanks ∧ (∀ line ∈ lead ++ blanks, isBlank line = true) ∧
        blanks ++ part.after = rest ++ beyond ∧ Sole lead rest ∧
        Named name depth part.before part.header lead entry rest beyond := by
  have hlines := findPart_lines hpart
  obtain ⟨htop, hbegins⟩ := findPart_header hpart
  have hheader := isBlank_of_isTopLevel htop
  have hsaid : said (part.before.rdropWhile isBlank) = said part.before :=
    Trim.filter_rdropWhile (fun line hline => by simpa using hline) _
  have hblanks : said (part.before.rtakeWhile isBlank) = [] :=
    said_eq_nil_iff.mpr fun line hline => List.mem_rtakeWhile_imp hline
  have hremoved : said (part.before.rtakeWhile isBlank ++ part.header :: part.body) =
      part.header :: said part.body := by
    rw [said_append, hblanks, List.nil_append, said_cons hheader]
  constructor
  · rintro ⟨depth, outside, header, lead, entry, rest, beyond, heq, hnamed, htakes⟩
    have hboth := hlines.symm.trans heq
    have hentry := hnamed.listed.entry
    rcases htakes with ⟨hsole, hbefore, htaken⟩ | ⟨-, hbefore, htaken⟩
    · have hheads := isBlank_of_heads hnamed.listed.within.heads
      obtain ⟨rfl, rfl, hrest⟩ := before_eq hboth hheader hheads (hsaid.symm.trans hbefore)
      rw [hremoved, said_cons hheader] at htaken
      obtain ⟨blanks, hbody, hblank⟩ := body_of_said hentry hsole hrest (List.cons.inj htaken).2
      refine ⟨depth, lead, entry, blanks, rest, beyond, hbody, hblank, ?_, hsole, hnamed⟩
      rw [hbody] at hrest
      simpa only [List.append_assoc, List.append_cancel_left_eq] using hrest
    · -- the key would stand where the entry does
      obtain ⟨dash, below, rfl, hblank, -⟩ := said_entry hentry
      have hitem : isItem dash = true := (hentry.dash dash rfl).1
      have hplace : part.before ++ part.header :: (part.body ++ part.after) =
          (outside ++ header :: lead) ++ dash :: (below ++ rest ++ beyond) := by
        rw [hboth]
        simp
      obtain ⟨-, rfl, -⟩ := before_eq hplace hheader hblank (hsaid.symm.trans hbefore)
      rw [not_isItem_of_begins hbegins] at hitem
      cases hitem
  · rintro ⟨depth, lead, entry, blanks, rest, beyond, hbody, hblank, hafter, hsole, hnamed⟩
    refine ⟨depth, part.before, part.header, lead, entry, rest, beyond, ?_, hnamed,
      .inl ⟨hsole, hsaid, ?_⟩⟩
    · rw [hlines, hbody]
      simp only [List.append_assoc, hafter]
    · have hlead : said lead = [] :=
        said_eq_nil_iff.mpr fun line hline => hblank line (List.mem_append_left _ hline)
      have htail : said blanks = [] :=
        said_eq_nil_iff.mpr fun line hline => hblank line (List.mem_append_right _ hline)
      rw [hremoved, said_cons hheader, hbody, said_append, said_append, hlead, htail, List.nil_append,
        List.append_nil]

/-- One block of several is taken out. -/
theorem takesOut_block {blocks : List Line} {found : List Line} {tail : List Line}
    (hlines : lines = part.before ++ part.header :: (blocks ++ (found ++ tail)))
    (hfound : ∃ dash below, found = dash :: below ∧ dashed dash = true) :
    (∃ depth outside header lead entry rest beyond,
      lines = outside ++ header :: (lead ++ entry ++ rest ++ beyond) ∧
        Named name depth outside header lead entry rest beyond ∧
        TakesOut ⟨part.before ++ part.header :: blocks, found, tail⟩ outside header lead entry rest) ↔
    ∃ depth outside header lead entry blanks rest beyond,
      part.before ++ part.header :: blocks = outside ++ header :: lead ∧
        found = entry ++ blanks ∧ (∀ line ∈ blanks, isBlank line = true) ∧
        blanks ++ tail = rest ++ beyond ∧ ¬ Sole lead rest ∧
        Named name depth outside header lead entry rest beyond := by
  obtain ⟨mark, marked, rfl, hmark⟩ := hfound
  have hline := isBlank_of_dashed hmark
  have hplace : lines = (part.before ++ part.header :: blocks) ++ mark :: (marked ++ tail) := by
    rw [hlines]
    simp
  constructor
  · rintro ⟨depth, outside, header, lead, entry, rest, beyond, heq, hnamed, htakes⟩
    have hentry := hnamed.listed.entry
    rcases htakes with ⟨-, hbefore, -⟩ | ⟨hsole, hbefore, htaken⟩
    · -- an item would stand where the key does
      have hheads := hnamed.listed.within.heads
      obtain ⟨-, rfl, -⟩ := before_eq (hplace.symm.trans heq) hline (isBlank_of_heads hheads) hbefore
      rw [not_dashed_of_heads hheads] at hmark
      cases hmark
    · obtain ⟨dash, below, rfl, hblank, hlast⟩ := said_entry hentry
      have hother : lines = (outside ++ header :: lead) ++ dash :: (below ++ rest ++ beyond) := by
        rw [heq]
        simp
      obtain ⟨hsame, rfl, hrest⟩ := before_eq (hplace.symm.trans hother) hline hblank hbefore
      obtain ⟨blanks, hblanks, hall⟩ :=
        First.append_of_filter_eq (p := fun line => !isBlank line) (a := mark :: marked) (r := tail)
          (b := mark :: below) (s := rest ++ beyond)
          (by simpa only [List.cons_append, List.append_assoc] using congrArg (mark :: ·) hrest)
          hlast htaken
      refine ⟨depth, outside, header, lead, mark :: below, blanks, rest, beyond, hsame, hblanks,
        fun line hmem => by simpa using hall line hmem, ?_, hsole, hnamed⟩
      rw [List.cons_append] at hblanks
      rw [(List.cons.inj hblanks).2] at hrest
      simpa only [List.append_assoc, List.append_cancel_left_eq] using hrest
  · rintro ⟨depth, outside, header, lead, entry, blanks, rest, beyond, hsame, hfound, hblank, htail,
      hsole, hnamed⟩
    refine ⟨depth, outside, header, lead, entry, rest, beyond, ?_, hnamed,
      .inr ⟨hsole, congrArg said hsame, ?_⟩⟩
    · calc lines
        _ = (part.before ++ part.header :: blocks) ++ (mark :: marked ++ tail) := by rw [hplace]; simp
        _ = (outside ++ header :: lead) ++ (entry ++ blanks ++ tail) := by rw [hsame, hfound]
        _ = (outside ++ header :: lead) ++ (entry ++ (rest ++ beyond)) := by
              rw [List.append_assoc entry, htail]
        _ = _ := by simp
    · rw [hfound, said_append, said_eq_nil_iff.mpr hblank, List.append_nil]

end

theorem removesEntry_iff (text name : List Char) : RemovesEntry text name ↔ RemoveFair text name := by
  cases hpart : findPart "bridges".toList (splitlines text) with
  | none =>
    have hremoval : removal name (splitlines text) = none := by rw [removal, hpart, Option.bind_none]
    simp only [RemovesEntry, RemoveFair, removeConfigBridge, hremoval, hpart, Option.map_none]
  | some part =>
    cases hfirst : first (fun block => entryName block = some name) (parts dashed part.body).2 with
    | none =>
      have hremoval : removal name (splitlines text) = none := by
        simp only [removal, hpart, hfirst, Option.bind_some, Option.map_none]
      simp only [RemovesEntry, RemoveFair, removeConfigBridge, hremoval, hpart, hfirst, Option.map_none]
    | some hit =>
      obtain ⟨hblocks, -, -⟩ := first_eq_some_iff.mp hfirst
      simp only [RemoveFair, hpart, hfirst]
      by_cases hone : (parts dashed part.body).2.length = 1
      · have hremoval : removal name (splitlines text) =
            some ⟨part.before.rdropWhile isBlank,
              part.before.rtakeWhile isBlank ++ part.header :: part.body, part.after⟩ := by
          simp only [removal, hpart, hfirst, hone, Option.bind_some, Option.map_some, if_true]
        rw [removesEntry_of_removal hremoval, if_pos hone]
        exact takesOut_section hpart
      · have hremoval : removal name (splitlines text) =
            some ⟨part.before ++ part.header :: ((parts dashed part.body).1 ++ hit.before.flatten),
              hit.found, hit.after.flatten ++ part.after⟩ := by
          simp only [removal, hpart, hfirst, hone, Option.bind_some, Option.map_some, if_false]
        rw [removesEntry_of_removal hremoval, if_neg hone]
        refine takesOut_block ?_ (First.head_of_mem_parts (l := part.body) ?_)
        · have hbody := First.parts_flatten dashed part.body
          rw [hblocks, List.flatten_append, List.flatten_cons] at hbody
          rw [findPart_lines hpart]
          nth_rewrite 1 [← hbody]
          simp only [List.append_assoc]
        · rw [hblocks]
          simp

/-- A key of the same name further down comes first. -/
def nested : Text := "telegram:\n  quiet:\n    timezone: 1\n  timezone: 2\n".toList

end Telemax.Config
