import Telemax.Lib.Lines
import Telemax.Lib.Trim
import Telemax.Routing.TextChunks

/-!
# Telemax.Telegram.RichMessage

`rich_message_to_markdown`: a Telegram Rich Message, a tree of page blocks with rich
texts in it, as one markdown string.

Every letter of the string is known to be one of the post's own words or something
the renderer puts around them.
-/

namespace Telemax.Telegram.RichMessage

/-! ## letters -/

/-- A letter of the string. -/
structure Letter where
  char : Char
  /-- It is one of the post's visible letters. -/
  own : Bool
  deriving DecidableEq, Repr

abbrev Text := List Letter

/-- What the post says. -/
def said (text : String) : Text := text.toList.map (⟨·, true⟩)

/-- What is put around it. -/
def put (text : String) : Text := text.toList.map (⟨·, false⟩)

def blank (l : Letter) : Bool := isSpace l.char

/-- Where `str.splitlines` breaks a line. -/
def breaks (l : Letter) : Bool :=
  let n := l.char.toNat
  (0xA ≤ n && n ≤ 0xD) || (0x1C ≤ n && n ≤ 0x1E) || n == 0x85 || n == 0x2028 || n == 0x2029

/-- A carriage return and the line feed behind it are one break. -/
def paired (a b : Letter) : Bool := a.char = '\r' && b.char = '\n'

def splitlines (text : Text) : List Text := Lines.splitLines breaks paired text

def strip (text : Text) : Text := Trim.trim blank text

def rstrip (text : Text) : Text := text.rdropWhile blank

def join (between : String) (parts : List Text) : Text := (put between).intercalate parts

/-- `join` over the parts that say something. -/
def joinParts (between : String) (parts : List Text) : Text :=
  join between (parts.filter (· ≠ []))

/-! ## the post -/

/-- `TextBold` and its like. -/
inductive Style
  | bold
  | italic
  | underline
  | strike
  | fixed
  deriving DecidableEq, Repr

def Style.mark : Style → String
  | .bold => "**"
  | .italic => "_"
  | .underline => "__"
  | .strike => "~~"
  | .fixed => "`"

/-- `TextUrl`, `TextEmail` and `TextPhone`. -/
inductive Link
  | url
  | email
  | phone
  deriving DecidableEq, Repr

def Link.scheme : Link → String
  | .url => ""
  | .email => "mailto:"
  | .phone => "tel:"

/-- `PageBlockTitle` to `PageBlockHeading6`. -/
inductive Heading
  | title
  | header
  | subheader
  | heading1
  | heading2
  | heading3
  | heading4
  | heading5
  | heading6
  deriving DecidableEq, Repr

/-- `PageBlockParagraph` and its like, and `PageBlockAuthorDate` with its author. -/
inductive Textual
  | paragraph
  | subtitle
  | kicker
  | footer
  | thinking
  | authorDate
  deriving DecidableEq, Repr

inductive Media
  | photo
  | video
  | audio
  | map
  deriving DecidableEq, Repr

def Media.label : Media → String
  | .photo => "[Фото]"
  | .video => "[Видео]"
  | .audio => "[Аудио]"
  | .map => "[Карта]"

structure Article where
  title : String := ""
  description : String := ""
  url : String := ""
  deriving DecidableEq, Repr

mutual

/-- `None` and `TextEmpty` are `empty`; what has none of the types told apart is `other`, by
the fields that are looked at or that carry something to read. -/
inductive RichText
  | empty
  | plain (text : String)
  | concat (texts : List RichText)
  | customEmoji (alt : String)
  | math (source : String)
  | image
  | styled (style : Style) (text : RichText)
  | link (link : Link) (text : RichText) (target : String)
  | other (text : RichText) (texts : List RichText) (alt source : String) (blocks items : List Block)

inductive ListItem
  | item (text : RichText) (texts : List RichText) (blocks items : List Block)
      (checkbox checked : Bool) (num : String) (value : Int)

inductive Block
  /-- `None`, `PageBlockAnchor` and `PageBlockUnsupported`. -/
  | nothing
  | divider
  | math (source : String)
  | heading (heading : Heading) (text : RichText)
  | textual (textual : Textual) (text : RichText)
  | preformatted (text : RichText)
  /-- `PageBlockBlockquote` and `PageBlockPullquote`. -/
  | quote (text caption : RichText)
  | quoteBlocks (blocks : List Block) (caption : RichText)
  | list (items : List ListItem)
  | orderedList (start : Int) (items : List ListItem)
  | details (title : RichText) (blocks : List Block)
  | cover (cover : Block)
  /-- `PageBlockCollage` and `PageBlockSlideshow`. -/
  | gallery (items : List Block) (caption credit : RichText)
  | embedPost (blocks : List Block) (caption credit : RichText) (url : String)
  | embed (url : String) (caption credit : RichText)
  | table (title : RichText) (rows : List (List RichText))
  | relatedArticles (title : RichText) (articles : List Article)
  | media (media : Media) (caption credit : RichText)
  | other (text : RichText) (texts : List RichText) (blocks items : List Block)

end

/-! ## the markdown -/

/-- What is put around a text that says something. -/
def around (mark text : Text) : Text := if text = [] then [] else mark ++ text ++ mark

/-- `_indent`. -/
def indent (text pre continuation : Text) : Text :=
  match splitlines text with
  | [] => pre
  | line :: rest => join "\n" ((pre ++ line) :: rest.map (continuation ++ ·))

/-- `_quote`. -/
def quote (text : Text) : Text :=
  join "\n" ((splitlines text).map fun line => if line = [] then put ">" else put "> " ++ line)

/-- `_caption`. -/
def caption (text credit : Text) : Text := joinParts " — " [text, credit]

def Article.markdown (article : Article) : Text :=
  joinParts " — "
    [if article.title = "" then said article.description else said article.title, put article.url]

/-- `_list_item`, given what its text and its blocks come to. -/
def listItem (text blocks : Text) (checkbox checked : Bool) (pre : String) : Text :=
  let pre := if checkbox then pre ++ (if checked then "[x] " else "[ ] ") else pre
  rstrip (indent (if text = [] then blocks else text) (put pre)
    (put (String.ofList (List.replicate pre.length ' '))))

/-- The number of an item of an ordered list. -/
def itemNumber (num : String) (value : Int) (start : Int) (index : Nat) : String :=
  if num = "" then toString (if value = 0 then start + index else value) else num

/-- The blocks that say something. -/
def joinBlocks (parts : List Text) : Text := joinParts "\n\n" (parts.map strip)

mutual

/-- `_rich_text`. -/
def richText : RichText → Text
  | .empty => []
  | .plain text => said text
  | .concat texts => (richTexts texts).flatten
  | .customEmoji alt => said alt
  | .math source => said source
  | .image => put "[Изображение]"
  | .styled style text => put style.mark ++ richText text ++ put style.mark
  | .link link text target =>
      let inner := richText text
      if target = "" then inner
      else put "[" ++ inner ++ put "](" ++ put link.scheme ++ put target ++ put ")"
  | .other text texts alt source _ _ =>
      let inner := richText text
      if inner ≠ [] then inner
      else if texts ≠ [] then (richTexts texts).flatten
      else if alt ≠ "" then put alt
      else put source

def richTexts : List RichText → List Text
  | [] => []
  | text :: rest => richText text :: richTexts rest

def rowTexts : List (List RichText) → List Text
  | [] => []
  | cells :: rest => join " | " (richTexts cells) :: rowTexts rest

/-- `_block`. -/
def block : Block → Text
  | .nothing => []
  | .divider => put "—"
  | .math source => said source
  | .heading _ text => around (put "**") (richText text)
  | .textual _ text => richText text
  | .preformatted text =>
      let text := richText text
      if text = [] then [] else put "```\n" ++ text ++ put "\n```"
  | .quote text caption => quote (joinParts "\n" [richText text, richText caption])
  | .quoteBlocks inner caption =>
      quote (joinParts "\n" [joinBlocks (blocks inner), richText caption])
  | .list items => rstrip (join "\n" (listItems items))
  | .orderedList start items =>
      rstrip (join "\n" (numberedItems (if start = 0 then 1 else start) 0 items))
  | .details title inner =>
      joinParts "\n\n" [around (put "**") (richText title), joinBlocks (blocks inner)]
  | .cover inner => block inner
  | .gallery items text credit =>
      joinParts "\n\n" [joinBlocks (blocks items), caption (richText text) (richText credit)]
  | .embedPost inner text credit url =>
      joinParts "\n\n"
        [joinBlocks (blocks inner), caption (richText text) (richText credit), put url]
  | .embed url text credit => joinParts "\n" [put url, caption (richText text) (richText credit)]
  | .table title rows => joinParts "\n" (richText title :: rowTexts rows)
  | .relatedArticles title articles =>
      joinParts "\n" (richText title :: articles.map Article.markdown)
  | .media media text credit =>
      joinParts " — " [put media.label, caption (richText text) (richText credit)]
  | .other text _ inner items =>
      if inner ≠ [] then joinBlocks (blocks inner)
      else if items ≠ [] then joinBlocks (blocks items)
      else richText text

def blocks : List Block → List Text
  | [] => []
  | first :: rest => block first :: blocks rest

/-- The items of a list without numbers. -/
def listItems : List ListItem → List Text
  | [] => []
  | .item text _ inner _ checkbox checked _ _ :: rest =>
      listItem (richText text) (joinBlocks (blocks inner)) checkbox checked "• " :: listItems rest

def numberedItems (start : Int) (index : Nat) : List ListItem → List Text
  | [] => []
  | .item text _ inner _ checkbox checked num value :: rest =>
      listItem (richText text) (joinBlocks (blocks inner)) checkbox checked
          (itemNumber num value start index ++ ". ") ::
        numberedItems start (index + 1) rest

end

/-- `rich_message_to_markdown`. -/
def richMessage (message : List Block) : Text := strip (joinBlocks (blocks message))

/-- The string itself. -/
def markdown (message : List Block) : String := String.ofList ((richMessage message).map (·.char))

end Telemax.Telegram.RichMessage
