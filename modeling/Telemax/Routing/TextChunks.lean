import Mathlib.Algebra.GroupWithZero.Nat
import Mathlib.Data.List.Basic

/-!
# Telemax.Routing.TextChunks

`split_max_text`: a text too long for one MAX message becomes several.  The
limit counts UTF-16 code units; a break falls after a paragraph, a line or a
whitespace character in the latter half of what fits, else after the last
character that fits.
-/

namespace Telemax

def maxTextUtf16Limit : Nat := 4000

/-- The UTF-16 code units of one character. -/
def charUnits (c : Char) : Nat := if c.toNat > 0xFFFF then 2 else 1

/-- `utf16_units`. -/
def utf16Units (text : String) : Nat := (text.toList.map charUnits).sum

/-- `str.isspace` of one character. -/
def isSpace (c : Char) : Bool :=
  let n := c.toNat
  (0x9 ≤ n && n ≤ 0xD) || (0x1C ≤ n && n ≤ 0x20) || n == 0x85 || n == 0xA0 || n == 0x1680 ||
    (0x2000 ≤ n && n ≤ 0x200A) || n == 0x2028 || n == 0x2029 || n == 0x202F || n == 0x205F ||
    n == 0x3000

/-- The longest beginning of a text that takes at most `room` units. -/
def window : Nat → List Char → List Char
  | _, [] => []
  | room, c :: cs => if charUnits c ≤ room then c :: window (room - charUnits c) cs else []

/-- The last position from `floor` on at which `p` holds of the rest. -/
def lastFrom (p : List Char → Bool) (floor : Nat) (text : List Char) : Option Nat :=
  (List.range text.length).reverse.find? fun i => decide (floor ≤ i) && p (text.drop i)

/-- `_preferred_break`: where the piece ends, separator included; zero for a hard split. -/
def preferredBreak (window : List Char) (floor : Nat) : Nat :=
  match lastFrom (['\n', '\n'].isPrefixOf ·) floor window with
  | some paragraph => paragraph + 2
  | none =>
      match lastFrom (['\n'].isPrefixOf ·) floor window with
      | some line => line + 1
      | none =>
          match lastFrom (fun rest => rest.head?.any isSpace) floor window with
          | some index => index + 1
          | none => 0

/-- The loop of `split_max_text`.  Each turn takes at least one character, so the
length of the text bounds the turns. -/
def splitLoop (limit : Nat) : Nat → List Char → List (List Char)
  | 0, _ => []
  | turns + 1, text =>
      if text = [] then []
      else
        let fits := window limit text
        if fits.length = text.length then [text]
        else
          let split := preferredBreak fits (fits.length / 2)
          let split := if split = 0 then fits.length else split
          fits.take split :: splitLoop limit turns (text.drop split)

/-- `split_max_text`. -/
def splitMaxText (text : String) : List String :=
  if utf16Units text ≤ maxTextUtf16Limit then [text]
  else (splitLoop maxTextUtf16Limit text.length text.toList).map String.ofList

end Telemax
