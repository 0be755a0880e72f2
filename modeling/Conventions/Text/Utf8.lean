/-!
# Reading UTF-8

Octets are read one at a time by a small machine. After a lead octet it owes a
fixed number of continuation octets, the first of them from a narrowed range
where that rules out overlong forms, surrogates and values past U+10FFFF. An
octet outside the range ends the piece read so far, which counts as one
malformed unit, and is then read afresh: every malformed unit is a maximal
prefix of a well-formed character.

`units` keeps malformed units apart as `none`. The lossy reader replaces each
by U+FFFD and the strict reader refuses them.
-/

namespace Conventions.Text.Utf8

/-- Where the machine stands between octets. -/
inductive State where
  /-- Between characters. -/
  | start
  /-- Owing `count` more octets, the next one between `low` and `high`. -/
  | owing (count code low high : Nat)
  deriving DecidableEq, Repr

/-- The first octet of a character, or a malformed unit by itself. -/
def lead (b : Nat) : List (Option Char) × State :=
  if b < 0x80 then ([some (Char.ofNat b)], .start)
  else if b < 0xC2 then ([none], .start)
  else if b < 0xE0 then ([], .owing 1 (b - 0xC0) 0x80 0xBF)
  else if b = 0xE0 then ([], .owing 2 0 0xA0 0xBF)
  else if b = 0xED then ([], .owing 2 0xD 0x80 0x9F)
  else if b < 0xF0 then ([], .owing 2 (b - 0xE0) 0x80 0xBF)
  else if b = 0xF0 then ([], .owing 3 0 0x90 0xBF)
  else if b < 0xF4 then ([], .owing 3 (b - 0xF0) 0x80 0xBF)
  else if b = 0xF4 then ([], .owing 3 4 0x80 0x8F)
  else ([none], .start)

/-- One octet: the units it completes and the state after it. -/
def step : State → Nat → List (Option Char) × State
  | .start, b => lead b
  | .owing count code low high, b =>
    if low ≤ b ∧ b ≤ high then
      if count ≤ 1 then ([some (Char.ofNat (code * 64 + (b - 0x80)))], .start)
      else ([], .owing (count - 1) (code * 64 + (b - 0x80)) 0x80 0xBF)
    else (none :: (lead b).1, (lead b).2)

/-- The units read from a state on; a character cut off by the end is one malformed unit. -/
def unitsFrom : State → List UInt8 → List (Option Char)
  | .start, [] => []
  | .owing .., [] => [none]
  | st, b :: bs => (step st b.toNat).1 ++ unitsFrom (step st b.toNat).2 bs

/-- Characters and malformed units of an octet string, in order. -/
def units (bytes : List UInt8) : List (Option Char) :=
  unitsFrom .start bytes

def replacement : Char := '\uFFFD'

/-- The text of an octet string, each malformed unit replaced by U+FFFD. -/
def decodeLossy (bytes : List UInt8) : List Char :=
  (units bytes).map (·.getD replacement)

/-- The text of a well-formed octet string. -/
def decode? (bytes : List UInt8) : Option (List Char) :=
  (units bytes).mapM id

/-- The octets of a text. -/
def encode (cs : List Char) : List UInt8 :=
  cs.flatMap String.utf8EncodeChar

end Conventions.Text.Utf8
