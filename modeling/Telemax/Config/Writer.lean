import Telemax.Lib.First
import Telemax.Lib.Lines
import Telemax.Lib.Trim
import Telemax.Config.Yaml

/-!
# Telemax.Config.Writer

`set_config_value` and `remove_config_bridge`: a line of the configuration file is put
in its place, or the lines of a bridge are taken out, in the text itself.  Either looks
for its place by what a line begins with once it is stripped.

A change is given with the lines around it; `none` stands for `False`, and then nothing
is written.
-/

namespace Telemax.Config

open First (first parts)

abbrev Text := List Char

/-- Where `str.splitlines` breaks a line. -/
def breaks (c : Char) : Bool :=
  let n := c.toNat
  (0xA ≤ n && n ≤ 0xD) || (0x1C ≤ n && n ≤ 0x1E) || n == 0x85 || n == 0x2028 || n == 0x2029

/-- A carriage return and the line feed behind it are one break. -/
def paired (a b : Char) : Bool := a = '\r' && b = '\n'

def splitlines (text : Text) : List Line := Lines.splitLines breaks paired text

/-- `"\n".join(lines)`. -/
def join (lines : List Line) : Text := ['\n'].intercalate lines

def strip (line : Line) : Line := Trim.trim isSpace line

def lstrip (line : Line) : Line := line.dropWhile isSpace

/-- `is_top_level`. -/
def isTopLevel (line : Line) : Bool :=
  line.head?.any (!isSpace ·) && (lstrip line).head? ≠ some '#'

/-- `line.strip().startswith(f"{word}:")`. -/
def begins (word : List Char) (line : Line) : Bool := (word ++ [':']).isPrefixOf (strip line)

/-- A section as the writer finds it. -/
structure Part where
  before : List Line
  header : Line
  body : List Line
  after : List Line
  deriving DecidableEq, Repr

/-- The first top-level line that begins with `name:`, and its body: what stands before the next
top-level line. -/
def findPart (name : List Char) (lines : List Line) : Option Part :=
  (first (fun line => isTopLevel line && begins name line) lines).map fun hit =>
    ⟨hit.before, hit.found, hit.after.takeWhile (!isTopLevel ·), hit.after.dropWhile (!isTopLevel ·)⟩

/-! ## one value -/

/-- A line that is put in the place of another one, or between two. -/
structure Edit where
  before : List Line
  old : Option Line
  after : List Line
  deriving DecidableEq, Repr

/-- Where the line goes: the first line of the body that begins with `key:`, else behind the last
line that is not blank. -/
def setEdit (name key : List Char) (lines : List Line) : Option Edit :=
  (findPart name lines).map fun part =>
    match first (begins key) part.body with
    | some hit =>
        ⟨part.before ++ part.header :: hit.before, some hit.found, hit.after ++ part.after⟩
    | none =>
        ⟨part.before ++ part.header :: part.body.rdropWhile isBlank, none,
          part.body.rtakeWhile isBlank ++ part.after⟩

/-- `f"  {key}: {value}"`. -/
def newLine (key value : List Char) : Line := ' ' :: ' ' :: key ++ ':' :: ' ' :: value

/-- `set_config_value`. -/
def setConfigValue (text name key value : List Char) : Option Text :=
  (setEdit name key (splitlines text)).map fun edit =>
    join (edit.before ++ newLine key value :: edit.after) ++ ['\n']

/-! ## one bridge -/

/-- The line begins a list item. -/
def dashed (line : Line) : Bool := ['-', ' '].isPrefixOf (lstrip line)

def isQuote (c : Char) : Bool := c = '"' || c = '\''

/-- `line.lstrip().removeprefix("- ").strip()`. -/
def bare (line : Line) : Line :=
  strip (if dashed line then (lstrip line).drop 2 else lstrip line)

/-- `_entry_name`. -/
def entryName (block : List Line) : Option (List Char) :=
  (block.find? fun line => "name:".toList.isPrefixOf (bare line)).map fun line =>
    Trim.trim isQuote (strip (((bare line).dropWhile (· ≠ ':')).drop 1))

/-- The lines that are taken out. -/
structure Cut where
  before : List Line
  removed : List Line
  after : List Line
  deriving DecidableEq, Repr

/-- The first block of the body whose name it is, and the key with it when there is no other. -/
def removal (name : List Char) (lines : List Line) : Option Cut :=
  (findPart "bridges".toList lines).bind fun part =>
    let blocks := parts dashed part.body
    (first (fun block => entryName block = some name) blocks.2).map fun hit =>
      if blocks.2.length = 1 then
        ⟨part.before.rdropWhile isBlank, part.before.rtakeWhile isBlank ++ part.header :: part.body,
          part.after⟩
      else
        ⟨part.before ++ part.header :: (blocks.1 ++ hit.before.flatten), hit.found,
          hit.after.flatten ++ part.after⟩

/-- `remove_config_bridge`. -/
def removeConfigBridge (text name : List Char) : Option Text :=
  (removal name (splitlines text)).map fun cut =>
    (join (cut.before ++ cut.after)).rdropWhile (· = '\n') ++ ['\n']

end Telemax.Config
