import Conventions.Json.Value
import Conventions.Text.Quoted

/-!
# Writing JSON

Documents are written over several lines with two blanks of indentation for each
level, and with ASCII characters only: a character outside the printable ASCII
range is escaped by its UTF-16 units. Empty arrays and objects stay on one line.
-/

namespace Conventions.Json

/-- A UTF-16 unit as an escape. -/
def unitEscape (unit : Nat) : List Char :=
  '\\' :: 'u' :: Text.hexDigits 4 unit

def escapeChar (c : Char) : List Char :=
  if c = '"' ∨ c = '\\' then ['\\', c]
  else if c = '\n' then ['\\', 'n']
  else if c = '\r' then ['\\', 'r']
  else if c = '\t' then ['\\', 't']
  else if c = '\x08' then ['\\', 'b']
  else if c = '\x0c' then ['\\', 'f']
  else if 0x20 ≤ c.toNat ∧ c.toNat ≤ 0x7E then [c]
  else if c.toNat < 0x10000 then unitEscape c.toNat
  else
    unitEscape (0xD800 + (c.toNat - 0x10000) / 0x400) ++
      unitEscape (0xDC00 + (c.toNat - 0x10000) % 0x400)

def printString (s : String) : List Char :=
  '"' :: s.toList.flatMap escapeChar ++ ['"']

/-- A line break followed by the indentation of a level. -/
def lineBreak (depth : Nat) : List Char :=
  '\n' :: List.replicate (2 * depth) ' '

mutual

/-- A value whose first line is already indented to `depth`. -/
def printAt (depth : Nat) : Json → List Char
  | .null => "null".toList
  | .bool true => "true".toList
  | .bool false => "false".toList
  | .int n => (toString n).toList
  | .real lexeme => lexeme.toList
  | .str s => printString s
  | .arr [] => ['[', ']']
  | .arr (item :: items) =>
    '[' :: lineBreak (depth + 1) ++ printAt (depth + 1) item ++
      printItems (depth + 1) items ++ lineBreak depth ++ [']']
  | .obj [] => ['\x7b', '\x7d']
  | .obj ((key, value) :: members) =>
    '\x7b' :: lineBreak (depth + 1) ++ printString key ++ [':', ' '] ++
      printAt (depth + 1) value ++ printMembers (depth + 1) members ++ lineBreak depth ++ ['\x7d']

/-- The items after the first, each on a line of its own. -/
def printItems (depth : Nat) : List Json → List Char
  | [] => []
  | item :: items => ',' :: lineBreak depth ++ printAt depth item ++ printItems depth items

/-- The members after the first, each on a line of its own. -/
def printMembers (depth : Nat) : List (String × Json) → List Char
  | [] => []
  | (key, value) :: members =>
    ',' :: lineBreak depth ++ printString key ++ [':', ' '] ++ printAt depth value ++
      printMembers depth members

end

/-- The text of a document. -/
def print (v : Json) : String :=
  String.ofList (printAt 0 v)

end Conventions.Json
