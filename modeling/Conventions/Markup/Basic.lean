import Conventions.Markup.Cells
import Conventions.Markup.Emoji
import Conventions.Markup.Literal
import Conventions.Markup.Style

/-!
# Markup in messages

Messages are printed with markup: a tag in brackets whose first character is a
lower-case letter, a number sign, a slash or an at sign styles the text after it
and is not shown. A slash closes the last open tag or the last one with a name; closing what
is not open is an error. A backslash before a tag shows the tag as it is, and before
any other opening bracket it is dropped.

Between tags, emoji codes are replaced and characters that move the cursor are
left out; tabs become blanks at last.
-/

namespace Conventions.Markup

open Conventions.Text

/-- A tag: a style or an action, perhaps with parameters. -/
structure Tag where
  name : String
  parameters : Option (List Char)
  deriving DecidableEq, Repr

/-- A message is a sequence of plain texts and tags. -/
inductive Piece where
  | text (cs : List Char)
  | tag (t : Tag)
  deriving DecidableEq, Repr

/-- Whether a tag can start with this character. -/
def startsTag (c : Char) : Bool :=
  ('a' ≤ c && c ≤ 'z') || c == '#' || c == '/' || c == '@'

/-- The content of a tag after its opening bracket. -/
def tagBody? (cs : List Char) : Option (List Char) :=
  let body := cs.takeWhile fun c => c != '[' && c != ']'
  if body.head?.any startsTag && (cs.drop body.length).head? == some ']' then some body else none

/-- The number of backslashes before a tag and its content, if a text starts with that. -/
def tagAt? (cs : List Char) : Option (Nat × List Char) :=
  let slashes := (cs.takeWhile (· == '\\')).length
  match cs.drop slashes with
  | '[' :: more => (tagBody? more).map fun body => (slashes, body)
  | _ => none

/-- The tag with the given content; its parameters follow an equals sign. -/
def Tag.ofBody (body : List Char) : Tag :=
  let name := body.takeWhile (· != '=')
  { name := String.ofList name
    parameters := if name.length < body.length then some (body.drop (name.length + 1)) else none }

/-- The pieces for a tag after so many backslashes: two of them show one, and a single one before the
tag shows the tag. -/
def tagPieces (slashes : Nat) (body : List Char) : List Piece :=
  (if slashes < 2 then [] else [.text (List.replicate (slashes / 2) '\\')]) ++
    [if slashes % 2 = 1 then .text ('[' :: body ++ [']']) else .tag (.ofBody body)]

/-- A plain text, given backwards, as pieces. -/
def plainPiece (before : List Char) : List Piece :=
  if before.isEmpty then [] else [.text before.reverse]

/-- The pieces of a message, its first `skip` characters left out; `before` is the plain text up to
here, the last character first. -/
def piecesAfter : (skip : Nat) → (before : List Char) → List Char → List Piece
  | _, before, [] => plainPiece before
  | skip + 1, before, _ :: cs => piecesAfter skip before cs
  | 0, before, c :: cs =>
    match tagAt? (c :: cs) with
    | some (slashes, body) =>
      plainPiece before ++ tagPieces slashes body ++ piecesAfter (slashes + body.length + 1) [] cs
    | none => piecesAfter 0 (c :: before) cs

def pieces (s : String) : List Piece := piecesAfter 0 [] s.toList

/-- A text without the backslashes before opening brackets. -/
def dropEscapes : List Char → List Char
  | '\\' :: '[' :: cs => '[' :: dropEscapes cs
  | c :: cs => c :: dropEscapes cs
  | [] => []

/-- Characters that are never printed: bell, backspace, vertical tab, form feed, carriage return. -/
def isCursorControl (c : Char) : Bool :=
  ['\x07', '\x08', '\x0b', '\x0c', '\r'].contains c

/-- What a plain text shows. -/
def shownText (cs : List Char) : List Char :=
  (replaceCodes 0 (dropEscapes cs)).filter fun c => !isCursorControl c

/-- A tag that runs an action when its text is chosen. -/
def Tag.isAction (t : Tag) : Bool := startsWith "@" t.name

/-- The style text of an open tag. -/
def Tag.style (t : Tag) : String :=
  match t.parameters with
  | some parameters => t.name ++ " " ++ String.ofList parameters
  | none => t.name

/-- Whether an open tag can be closed: the parameters of an action must be readable, and the colors
of a style must not have broken numbers. -/
def Tag.canClose (t : Tag) : Bool :=
  if t.isAction then t.parameters.all areParameters else (normalName? t.style).isSome

/-- What was shown so far and the open tags, the last one first. -/
structure Display where
  shown : List Char := []
  openTags : List Tag := []

/-- The tag that a name closes, and the others; the empty name closes the last one. -/
def closing? (openTags : List Tag) (name : String) : Option (Tag × List Tag) :=
  if name = "" then openTags.head?.map fun t => (t, openTags.drop 1)
  else
    match normalName? name with
    | none => none
    | some normal =>
      (openTags.find? fun t => t.name == normal).map fun t => (t, openTags.erase t)

/-- The display after one more piece; there is none after a fault. -/
def Display.add? (d : Display) : Piece → Option Display
  | .text cs => some { d with shown := d.shown ++ shownText cs }
  | .tag t =>
    match t.name.toList with
    | '/' :: name =>
      match closing? d.openTags (stripped (String.ofList name)) with
      | some (closed, others) => if closed.canClose then some { d with openTags := others } else none
      | none => none
    | _ => (normalName? t.name).map fun normal => { d with openTags := { t with name := normal } :: d.openTags }

/-- The text that a message shows, or `none` for a fault in its markup. -/
def shown? (s : String) : Option String :=
  match (pieces s).foldlM Display.add? {} with
  | some d =>
    if d.openTags.all fun t => (normalName? t.style).isSome then
      some (String.ofList (expandTabs 0 d.shown))
    else none
  | none => none

end Conventions.Markup
