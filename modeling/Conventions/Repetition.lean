import Conventions.Findings.Basic
import Conventions.Literal

/-!
# Repeated string literals

Literals are compared by content, so quoting and prefixes do not matter. A
content of more than ten characters that occurs again is described in one block,
and every occurrence after its first adds a tenth to the score.
-/

namespace Conventions.Repetition

/-- Contents of this length or shorter are ignored. -/
def minLength : Nat := 10

def scorePerRepeat : Float := 0.1

/-- How much of a content a block shows. -/
def previewLength : Nat := 60

/-- The contents that count, in order. -/
def longContents (literals : List String) : List String :=
  (literals.map Literal.unquote).filter fun c => minLength < c.length

/-- Every long content that occurs more than once, in order of first occurrence, with its
number of occurrences. -/
def repeats (literals : List String) : List (String × Nat) :=
  let contents := longContents literals
  ((addAll [] contents).map fun c => (c, contents.count c)).filter fun r => 2 ≤ r.2

/-- The shown part of a content, on one line. -/
def preview (content : String) : String :=
  let cs := content.toList
  let shown := if cs.length ≤ previewLength then cs else cs.take previewLength ++ ['.', '.', '.']
  String.ofList (Text.escapeNewlines shown)

/-- The description of a repeated content. -/
def block (content : String) (count : Nat) : String :=
  "String literal \"" ++ preview content ++ "\" repeated " ++ toString count ++ " times"

/-- The record after one repeated content. -/
def addRepeat (d : Duplication) (r : String × Nat) : Duplication where
  blocks := addUnique d.blocks (block r.1 r.2)
  score := d.score + scorePerRepeat * (r.2 - 1).toFloat

/-- The record after the literals of a file. -/
def record (d : Duplication) (literals : List String) : Duplication :=
  (repeats literals).foldl addRepeat d

end Conventions.Repetition
