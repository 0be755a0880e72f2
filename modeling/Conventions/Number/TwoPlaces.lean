import Conventions.Number.Binary64

/-!
# Two decimal places

Scores in a report have two places. The exact value is rounded once; a half goes
to the even neighbour, and a negative number keeps its sign even when it rounds
to zero.
-/

namespace Conventions.Number

def twoDigits (n : Nat) : List Char :=
  [Nat.digitChar (n / 10 % 10), Nat.digitChar (n % 10)]

/-- A number with two places. -/
def twoPlaces (x : Float) : String :=
  match view x with
  | .notANumber => "nan"
  | .infinite negative => if negative then "-inf" else "inf"
  | .finite negative mantissa exponent =>
    let cents := (Fraction.scaled (100 * mantissa) 2 exponent).round
    (if negative then "-" else "") ++ toString (cents / 100) ++ "." ++
      String.ofList (twoDigits (cents % 100))

end Conventions.Number
