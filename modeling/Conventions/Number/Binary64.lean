/-!
# The value of a floating-point number

A binary64 number is read off its bits: not a number, an infinity, or a sign and
the exact value `mantissa * 2 ^ exponent`. Printing and rounding work on that
value in natural-number arithmetic and never on rounded intermediate results.
-/

namespace Conventions.Number

/-- What a binary64 number stands for. -/
inductive View where
  | notANumber
  | infinite (negative : Bool)
  | finite (negative : Bool) (mantissa : Nat) (exponent : Int)
  deriving DecidableEq, Repr

def fractionBits (x : Float) : Nat := x.toBits.toNat % Nat.pow 2 52

def exponentBits (x : Float) : Nat := x.toBits.toNat / Nat.pow 2 52 % Nat.pow 2 11

def signBit (x : Float) : Bool := x.toBits.toNat / Nat.pow 2 63 == 1

def view (x : Float) : View :=
  if exponentBits x = 2047 then
    if fractionBits x = 0 then .infinite (signBit x) else .notANumber
  else if exponentBits x = 0 then .finite (signBit x) (fractionBits x) (-1074)
  else .finite (signBit x) (Nat.pow 2 52 + fractionBits x) (exponentBits x - 1075)

/-- A positive fraction, kept unreduced. -/
structure Fraction where
  num : Nat
  den : Nat
  deriving DecidableEq, Repr

/-- The value `m * b ^ e`. -/
def Fraction.scaled (m b : Nat) (e : Int) : Fraction :=
  if 0 ≤ e then ⟨m * Nat.pow b e.toNat, 1⟩ else ⟨m, Nat.pow b (-e).toNat⟩

def Fraction.le (p q : Fraction) : Bool :=
  p.num * q.den ≤ q.num * p.den

def Fraction.lt (p q : Fraction) : Bool :=
  p.num * q.den < q.num * p.den

def Fraction.mul (p q : Fraction) : Fraction :=
  ⟨p.num * q.num, p.den * q.den⟩

/-- The distance of two fractions. -/
def Fraction.gap (p q : Fraction) : Fraction :=
  ⟨(p.num * q.den - q.num * p.den) + (q.num * p.den - p.num * q.den), p.den * q.den⟩

def Fraction.floor (p : Fraction) : Nat :=
  p.num / p.den

/-- The nearest natural number; halves go to the even neighbour. -/
def Fraction.round (p : Fraction) : Nat :=
  let low := p.num / p.den
  let twice := 2 * (p.num % p.den)
  if twice < p.den then low
  else if p.den < twice then low + 1
  else if low % 2 = 0 then low else low + 1

end Conventions.Number
