import Conventions.Text.Blank

/-!
# Reading numbers

Numbers are read from texts that people type: spaces around them, a sign, digits
of any script, and single underscores between digits. A whole number may have at
most 4300 digits. A decimal number may have a fraction and an exponent, or be
one of the words for infinity and for not-a-number in any case.
-/

namespace Conventions.Number

open Conventions.Text

/-- The zero of each run of ten decimal digits. -/
def zeroDigits : List Nat :=
  [
    48, 1632, 1776, 1984, 2406, 2534, 2662, 2790, 2918, 3046, 3174, 3302,
    3430, 3558, 3664, 3792, 3872, 4160, 4240, 6112, 6160, 6470, 6608, 6784,
    6800, 6992, 7088, 7232, 7248, 42528, 43216, 43264, 43472, 43504, 43600, 44016,
    65296, 66720, 68912, 69734, 69872, 69942, 70096, 70384, 70736, 70864, 71248, 71360,
    71472, 71904, 72016, 72784, 73040, 73120, 92768, 92864, 93008, 120782, 120792, 120802,
    120812, 120822, 123200, 123632, 125264, 130032
  ]

/-- The value of a decimal digit of any script. -/
def digitValue? (c : Char) : Option Nat :=
  (zeroDigits.find? fun z => z ≤ c.toNat && c.toNat < z + 10).map (c.toNat - ·)

/-- The most decimal digits a whole number may be written with. -/
def maxDigits : Nat := 4300

/-- Why a text is no whole number. -/
inductive WholeFault where
  | malformed
  | tooLong (digits : Nat)
  deriving DecidableEq, Repr

/-- Digits with single underscores between them, read from the start of a text: the digits and
the rest. A rest that starts with an underscore shows a misplaced one. -/
def digitRun : List Char → List Nat × List Char
  | [] => ([], [])
  | '_' :: c :: cs =>
    match digitValue? c with
    | some d => let (ds, rest) := digitRun cs; (d :: ds, rest)
    | none => ([], '_' :: c :: cs)
  | c :: cs =>
    match digitValue? c with
    | some d => let (ds, rest) := digitRun cs; (d :: ds, rest)
    | none => ([], c :: cs)

/-- Like `digitRun`, but an underscore may not come first. -/
def digits (cs : List Char) : List Nat × List Char :=
  match cs with
  | '_' :: _ => ([], cs)
  | _ => digitRun cs

/-- The number with the given decimal digits. -/
def ofDigits (ds : List Nat) : Nat :=
  ds.foldl (fun n d => 10 * n + d) 0

/-- A sign, `true` for minus, and the rest. -/
def sign : List Char → Bool × List Char
  | '-' :: cs => (true, cs)
  | '+' :: cs => (false, cs)
  | cs => (false, cs)

/-- A whole number with a sign. -/
def whole? (cs : List Char) : Except WholeFault Int :=
  let (negative, body) := sign (trimBy isSpace cs)
  let (ds, rest) := digits body
  if ds.isEmpty || rest.head? == some '_' then .error .malformed
  else if maxDigits < ds.length then .error (.tooLong ds.length)
  else if !rest.isEmpty then .error .malformed
  else .ok (if negative then -(ofDigits ds : Int) else ofDigits ds)

/-- The number `m * 10 ^ e`, correctly rounded. Exponents far outside the range of binary64 are
settled by the number of digits alone. -/
def ofDecimal (m : Nat) (e : Int) : Float :=
  let size := e + (Nat.toDigits 10 m).length
  if m = 0 ∨ size < -400 then 0.0
  else if 400 < size then 1.0 / 0.0
  else Float.ofScientific m (e < 0) e.natAbs

/-- An exponent part: `e` or `E`, a sign and digits. -/
def exponentPart : List Char → Option (Int × List Char)
  | c :: cs =>
    if c = 'e' ∨ c = 'E' then
      let (negative, body) := sign cs
      let (ds, rest) := digits body
      if ds.isEmpty then none
      else some (if negative then -(ofDigits ds : Int) else ofDigits ds, rest)
    else some (0, c :: cs)
  | [] => some (0, [])

/-- Digits, an optional fraction and an optional exponent, and nothing after them. -/
def unsignedReal? (cs : List Char) : Option Float :=
  let (ds, rest) := digits cs
  let (fs, rest') := match rest with
    | '.' :: more => digits more
    | _ => ([], rest)
  if ds.isEmpty && fs.isEmpty then none
  else
    match exponentPart rest' with
    | some (e, []) => some (ofDecimal (ofDigits (ds ++ fs)) (e - fs.length))
    | _ => none

/-- A decimal number with a sign, or a word for infinity or not-a-number. -/
def real? (cs : List Char) : Option Float :=
  let (negative, body) := sign (trimBy isSpace cs)
  let magnitude :=
    match String.ofList (body.map Char.toLower) with
    | "inf" | "infinity" => some (1.0 / 0.0)
    | "nan" => some (0.0 / 0.0)
    | _ => unsignedReal? body
  magnitude.map fun x => if negative then -x else x

end Conventions.Number
