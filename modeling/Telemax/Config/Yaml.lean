import Telemax.Routing.TextChunks

/-!
# Telemax.Config.Yaml

What the lines of a block-style YAML file say: which of them begin a top-level section,
which are a section's own children, which make up an entry of a list.  Depth is
indentation by spaces; a key is read as it is written, plain or in quotes.

A place in the file is the lines before it and the lines after it.
-/

namespace Telemax.Config

abbrev Line := List Char

/-! ## one line -/

/-- White space within a line. -/
def white (c : Char) : Bool := c = ' ' || c = '\t'

def isBlank (line : Line) : Bool := line.all isSpace

def indentOf (line : Line) : Nat := (line.takeWhile (· = ' ')).length

/-- A line that says something: it is not blank and no comment. -/
def isContent (line : Line) : Bool := !isBlank line && (line.dropWhile white).head? ≠ some '#'

/-- What follows the dash of a list's entry. -/
def itemText (line : Line) : Option (List Char) :=
  match line.drop (indentOf line) with
  | '-' :: text => if text.head?.all white then some text else none
  | _ => none

def isItem (line : Line) : Bool := isContent line && (itemText line).isSome

/-- `text` behind its anchor or tag, if it begins with one. -/
def untagged (text : List Char) : List Char :=
  if text.head? = some '&' ∨ text.head? = some '!' then
    (text.dropWhile (!white ·)).dropWhile white
  else text

/-- A plain key, and what follows its colon. -/
def plainKey : List Char → Option (List Char × List Char)
  | [] => none
  | c :: text =>
      if c = ':' ∧ text.head?.all white then some ([], text)
      else (plainKey text).map fun read => (c :: read.1, read.2)

/-- A key in quotes, and what follows its colon. -/
def quotedKey (quote : Char) (text : List Char) : Option (List Char × List Char) :=
  match ((text.dropWhile (· ≠ quote)).drop 1).dropWhile white with
  | ':' :: rest =>
      if rest.head?.all white then some (text.takeWhile (· ≠ quote), rest) else none
  | _ => none

/-- The key a text begins with, and what follows its colon. -/
def readKey (text : List Char) : Option (List Char × List Char) :=
  match untagged (untagged text) with
  | '"' :: rest => quotedKey '"' rest
  | '\'' :: rest => quotedKey '\'' rest
  | plain =>
      (plainKey plain).map fun read =>
        ((read.1.reverse.dropWhile white).reverse, read.2)

/-- A plain value ends where a comment begins. -/
def uncommented : List Char → List Char
  | [] => []
  | c :: text => if white c ∧ text.head? = some '#' then [] else c :: uncommented text

/-- The value on the line of its key. -/
def readValue (text : List Char) : List Char :=
  match text.dropWhile white with
  | '"' :: rest => rest.takeWhile (· ≠ '"')
  | '\'' :: rest => rest.takeWhile (· ≠ '\'')
  | '#' :: _ => []
  | plain => ((uncommented plain).reverse.dropWhile white).reverse

/-- The key of a line that is no entry of a list. -/
def keyOf (line : Line) : Option (List Char) :=
  if isContent line ∧ ¬ isItem line then
    (readKey (line.drop (indentOf line))).map (·.1)
  else none

/-- Nothing but a comment, an anchor or a tag: the value is the block below. -/
def opensBlock (text : List Char) : Bool :=
  ((text.dropWhile white).head?).all fun c => c = '#' || c = '&' || c = '!'

/-! ## sections -/

/-- The line begins a top-level section. -/
def isHeader (line : Line) : Bool := isContent line && indentOf line = 0 && !isItem line

/-- The line begins the section `name`. -/
def Heads (name : List Char) (line : Line) : Prop := isHeader line = true ∧ keyOf line = some name

instance (name : List Char) (line : Line) : Decidable (Heads name line) :=
  inferInstanceAs (Decidable (_ ∧ _))

/-- The value of the section is the block below its line. -/
def Opens (line : Line) : Prop :=
  ∃ read ∈ readKey (line.drop (indentOf line)), opensBlock read.2 = true

/-- The section `name`, of which the lines `inside` stand before a place and `rest` after it. -/
structure Inside (name : List Char) (outside : List Line) (header : Line)
    (inside rest beyond : List Line) : Prop where
  heads : Heads name header
  opens : Opens header
  own : ∀ line ∈ inside ++ rest, isHeader line = false
  ends : ∀ line ∈ beyond.head?, isHeader line = true
  /-- There is no other section of that name. -/
  only : ∀ line ∈ outside ++ beyond, ¬ Heads name line

/-- A place in the section for its child `key`: the other children stand at `depth`, none of them
is `key`, and the next one, if any, stands right below it. -/
structure Place (name key : List Char) (depth : Nat) (outside : List Line) (header : Line)
    (inside rest beyond : List Line) : Prop where
  within : Inside name outside header inside rest beyond
  deep : ∀ line ∈ inside ++ rest, isContent line = true → depth ≤ indentOf line
  first : ∀ line ∈ (inside ++ rest).find? isContent, indentOf line = depth
  only : ∀ line ∈ inside ++ rest, indentOf line = depth → keyOf line ≠ some key
  next : ∀ line ∈ rest.find? isContent, indentOf line = depth ∧ isItem line = false

/-- Between `before` and `after` the child `key` of the section can stand at `depth`. -/
def InPlace (name key : List Char) (depth : Nat) (before after : List Line) : Prop :=
  ∃ outside header inside rest beyond,
    before = outside ++ header :: inside ∧ after = rest ++ beyond ∧
      Place name key depth outside header inside rest beyond

/-- The line is the section's own child `key`, the only one of that key, and has no lines below
its own. -/
structure OwnChild (name key : List Char) (before : List Line) (line : Line) (after : List Line) :
    Prop where
  place : InPlace name key (indentOf line) before after
  nested : 0 < indentOf line
  keyed : keyOf line = some key

/-! ## lists -/

/-- A line that belongs to no entry when only such lines follow it. -/
def loose (depth : Nat) (line : Line) : Bool :=
  isBlank line || (!isContent line && indentOf line ≤ depth)

/-- The lines are a list whose dashes stand at `depth`. -/
structure Listing (depth : Nat) (lines : List Line) : Prop where
  deep : ∀ line ∈ lines, isContent line = true → depth ≤ indentOf line
  dashes : ∀ line ∈ lines, isContent line = true → indentOf line = depth → isItem line = true
  first : ∀ line ∈ lines.find? isContent, indentOf line = depth

/-- `entry` is one entry of the list `lead ++ entry ++ rest`: from its dash to the last line
that belongs to it. -/
structure Entry (depth : Nat) (lead entry rest : List Line) : Prop where
  listing : Listing depth (lead ++ entry ++ rest)
  dash : ∀ line ∈ entry.head?, isItem line = true ∧ indentOf line = depth
  holds : entry ≠ []
  below : ∀ line ∈ entry.tail, isContent line = true → depth < indentOf line
  last : ∀ line ∈ entry.getLast?, loose depth line = false
  ends : ∀ line ∈ (rest.dropWhile (loose depth)).head?, isItem line = true ∧ indentOf line = depth

/-- The keys of an entry's mapping, each with the text behind its colon. -/
def fieldsOf (entry : List Line) : List (List Char × List Char) :=
  match entry with
  | [] => []
  | dash :: below =>
      match itemText dash with
      | none => []
      | some text =>
          let inline := text.dropWhile white
          if inline.head?.all (· = '#') then
            match below.find? isContent with
            | none => []
            | some first => fieldsAt (indentOf first) below
          else (readKey inline).toList ++ fieldsAt (dash.length - inline.length) below
where
  /-- Those that stand at `column`. -/
  fieldsAt (column : Nat) (lines : List Line) : List (List Char × List Char) :=
    lines.filterMap fun line =>
      if isContent line ∧ ¬ isItem line ∧ indentOf line = column then
        readKey (line.drop (indentOf line))
      else none

/-- An entry's own `name`. -/
def ownName (entry : List Line) : Option (List Char) :=
  ((fieldsOf entry).find? (·.1 = "name".toList)).map fun field => readValue field.2

/-- `entry` is an entry of the list of the section `name`. -/
structure EntryOf (name : List Char) (depth : Nat) (outside : List Line) (header : Line)
    (lead entry rest beyond : List Line) : Prop where
  within : Inside name outside header lead (entry ++ rest) beyond
  entry : Entry depth lead entry rest

end Telemax.Config
