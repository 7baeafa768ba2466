import Mathlib.Algebra.GroupWithZero.Nat
import Mathlib.Data.List.Sort
import Telemax.Lib.Utf16

/-!
# Telemax.Formatting.Elements

`entities_to_markdown`: Telegram's formatting, ranges over UTF-16 code units,
written as the markdown that PyMax parses back.
-/

namespace Telemax.Formatting

/-- A Telegram entity, as far as the rendering reads it. -/
structure Entity where
  type : String
  offset : Nat
  length : Nat
  url : Option String
deriving Repr, DecidableEq

namespace Entity

/-- Where the range ends. -/
def stop (item : Entity) : Nat := item.offset + item.length

/-- `_MARKDOWN`, and the link, whose closer is its target. -/
def markers (item : Entity) : Option (String × String) :=
  match item.type with
  | "bold" => some ("**", "**")
  | "italic" => some ("_", "_")
  | "underline" => some ("__", "__")
  | "strikethrough" => some ("~~", "~~")
  | "code" => some ("`", "`")
  | "pre" => some ("```", "```")
  | "text_link" => some ("[", "](" ++ item.url.getD "" ++ ")")
  | _ => none

/-- Of a type that has a rendering. -/
def supported (item : Entity) : Bool := item.markers.isSome

def opener (item : Entity) : List Char := (item.markers.getD ("", "")).1.toList

def closer (item : Entity) : List Char := (item.markers.getD ("", "")).2.toList

/-- The sort's key: the offset, then the longer first. -/
def Before (a b : Entity) : Prop := a.offset < b.offset ∨ a.offset = b.offset ∧ b.length ≤ a.length

instance : DecidableRel Before := fun a b => by unfold Before; infer_instance

end Entity

/-- `units[start * 2 : end * 2].decode(...)`. -/
def cut (units : List Nat) (start stop : Nat) : Option (List Char) :=
  Utf16.decode ((units.take stop).drop start)

/-- The loop over the sorted ranges, from `cursor` to the end of the text. -/
def render (units : List Nat) : Nat → List Entity → Option (List Char)
  | cursor, [] => cut units cursor units.length
  | cursor, item :: ranges =>
      -- a range that begins before the cursor is dropped
      if item.offset < cursor then render units cursor ranges
      else do
        let before ← cut units cursor item.offset
        let body ← cut units item.offset item.stop
        let after ← render units item.stop ranges
        return before ++ (item.opener ++ body ++ item.closer) ++ after

/-- The rendering; nothing when a range cuts a character in half. -/
def entitiesToMarkdown (text : String) (entities : List Entity) : Option String :=
  let ranges := entities.filter Entity.supported
  if ranges = [] then some text
  else (render (Utf16.encode text.toList) 0 (ranges.insertionSort Entity.Before)).map String.ofList

end Telemax.Formatting
