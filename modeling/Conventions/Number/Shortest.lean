import Conventions.Number.Binary64

/-!
# The shortest decimal text of a number

Among the decimals that read back to a given binary64 number, the one with the
fewest significant digits is written, and of those with equally many the one
nearest to the number. Reading back is decided exactly: the decimal has to lie
between the two midpoints that separate the number from its neighbours, the
midpoints themselves included when the last bit is even.

The layout is positional for decimal exponents from -4 to 15 and scientific
outside, with a sign and at least two digits in the exponent. A positional
number always has a fractional part.
-/

namespace Conventions.Number

/-- A decimal `digits * 10 ^ exponent`. -/
structure Decimal where
  digits : Nat
  exponent : Int
  deriving DecidableEq, Repr

def Decimal.value (d : Decimal) : Fraction :=
  .scaled d.digits 10 d.exponent

/-- The reals that round to a number: lower end, upper end, and whether the ends belong. -/
structure RoundingInterval where
  low : Fraction
  high : Fraction
  closed : Bool

/-- The interval of a nonzero number. Below a power of two the spacing is halved, except at the
bottom of the exponent range. -/
def RoundingInterval.of (mantissa : Nat) (exponent : Int) : RoundingInterval where
  low := .scaled (4 * mantissa - (if mantissa = Nat.pow 2 52 ∧ exponent ≠ -1074 then 1 else 2)) 2
    (exponent - 2)
  high := .scaled (4 * mantissa + 2) 2 (exponent - 2)
  closed := mantissa % 2 = 0

def RoundingInterval.contains (i : RoundingInterval) (q : Fraction) : Bool :=
  if i.closed then i.low.le q && q.le i.high else i.low.lt q && q.lt i.high

/-- How many decimal digits a natural number has. -/
def digitCount (n : Nat) : Nat :=
  (Nat.toDigits 10 n).length

/-- The exponent `p` with `10 ^ p ≤ q < 10 ^ (p + 1)`. -/
def decimalExponent (q : Fraction) : Int :=
  if q.den ≤ q.num then digitCount q.floor - 1
  else
    let l := digitCount (q.den / q.num)
    if q.den = q.num * Nat.pow 10 (l - 1) then -(l - 1 : Int) else -(l : Int)

/-- The two neighbours of a value on the grid of decimals with `count` digits, nearer one first;
of two equally near ones the even one. -/
def gridNeighbours (q : Fraction) (count : Nat) : List Decimal :=
  let e : Int := decimalExponent q - count + 1
  let d := (q.mul (.scaled 1 10 (-e))).floor
  let below : Decimal := ⟨d, e⟩
  let above : Decimal := ⟨d + 1, e⟩
  let down := q.gap below.value
  let up := q.gap above.value
  if down.lt up || (down.le up && d % 2 == 0) then [below, above] else [above, below]

/-- The exact value as a decimal. -/
def exactDecimal (mantissa : Nat) (exponent : Int) : Decimal :=
  if 0 ≤ exponent then ⟨mantissa * Nat.pow 2 exponent.toNat, 0⟩
  else ⟨mantissa * Nat.pow 5 (-exponent).toNat, exponent⟩

/-- The shortest decimal that reads back to `mantissa * 2 ^ exponent`. -/
def shortestDecimal (mantissa : Nat) (exponent : Int) : Decimal :=
  let q := Fraction.scaled mantissa 2 exponent
  let interval := RoundingInterval.of mantissa exponent
  let candidates := (List.range 17).flatMap fun n => gridNeighbours q (n + 1)
  (candidates.find? fun d => interval.contains d.value).getD (exactDecimal mantissa exponent)

/-- Significant digits without trailing zeros, and the exponent of the first digit. -/
def Decimal.significant (d : Decimal) : List Char × Int :=
  let ds := Nat.toDigits 10 d.digits
  ((ds.reverse.dropWhile (· == '0')).reverse, d.exponent + ds.length - 1)

/-- Scientific layout: one digit before the point, then the exponent with its sign. -/
def scientific (ds : List Char) (exponent : Int) : List Char :=
  let fraction := match ds.drop 1 with
    | [] => []
    | rest => '.' :: rest
  let power := Nat.toDigits 10 exponent.natAbs
  ds.take 1 ++ fraction ++ ['e', if exponent < 0 then '-' else '+'] ++
    List.replicate (2 - power.length) '0' ++ power

/-- Positional layout, with a zero where a side of the point has no digit. -/
def positional (ds : List Char) (exponent : Int) : List Char :=
  if exponent < 0 then '0' :: '.' :: List.replicate (-exponent - 1).toNat '0' ++ ds
  else
    let whole := exponent.toNat + 1
    let padded := ds ++ List.replicate (whole - ds.length) '0'
    padded.take whole ++ '.' :: (if padded.length ≤ whole then ['0'] else padded.drop whole)

def layout (ds : List Char) (exponent : Int) : List Char :=
  if exponent < -4 ∨ 16 ≤ exponent then scientific ds exponent else positional ds exponent

/-- The words for values without digits. -/
structure Words where
  notANumber : String
  infinity : String

def View.text (words : Words) : View → String
  | .notANumber => words.notANumber
  | .infinite negative => (if negative then "-" else "") ++ words.infinity
  | .finite negative mantissa exponent =>
    (if negative then "-" else "") ++
      if mantissa = 0 then "0.0"
      else
        let (ds, e) := (shortestDecimal mantissa exponent).significant
        String.ofList (layout ds e)

/-- The words of messages. -/
def plainWords : Words := ⟨"nan", "inf"⟩

/-- The words of JSON documents. -/
def jsonWords : Words := ⟨"NaN", "Infinity"⟩

/-- The shortest decimal text that reads back to a number. -/
def shortest (x : Float) : String :=
  (view x).text plainWords

end Conventions.Number
