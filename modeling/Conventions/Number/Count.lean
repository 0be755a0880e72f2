import Conventions.Number.Numeral
import Conventions.Text.Search

/-!
# Counts

A count on the command line is a positive whole number in the digits 0 to 9. Spaces
around it, a plus sign, zeros in front, a point with zeros after it and single
underscores between the digits make no difference.
-/

namespace Conventions.Number

open Conventions.Text

/-- What is left of a count after its zeros in front, which underscores may follow. -/
def dropLeadingZeros (cs : List Char) : List Char :=
  if cs.head? == some '0' then cs.dropWhile fun c => c == '0' || c == '_' else cs

/-- A text without a point and the zeros after it. -/
def dropZeroFraction (cs : List Char) : List Char :=
  let whole := cs.takeWhile (· != '.')
  if (cs.drop (whole.length + 1)).all (· == '0') then whole else cs

/-- The digits of a text in which single underscores stand between digits. -/
def groupedDigits? (cs : List Char) : Option (List Char) :=
  let groups := splitOn '_' cs
  if groups.all fun g => g != [] && g.all Char.isDigit then some groups.flatten else none

/-- The count in a text. -/
def count? (cs : List Char) : Option Nat :=
  let body := trimBy isSpace cs
  let unsigned := if body.head? == some '+' then body.drop 1 else body
  if unsigned.head?.any Char.isDigit then
    match groupedDigits? (dropZeroFraction (dropLeadingZeros unsigned)) with
    | some digits =>
      let n := ofDigits (digits.map fun c => c.toNat - '0'.toNat)
      if digits.length ≤ maxDigits ∧ 0 < n then some n else none
    | none => none
  else none

end Conventions.Number
