/-!
# Blank characters and trimming

Spaces are the characters of the Unicode property White_Space. Blanks are the
spaces and the four information separators U+001C to U+001F. Blanks decide what
trimming removes, what a report counts as an empty value and what may stand
between a keyword and its value in the secret scan; around a number only spaces
are passed over.
-/

namespace Conventions.Text

/-- Membership of a code point in a table of inclusive ranges. -/
def inRanges (table : List (Nat × Nat)) (n : Nat) : Bool :=
  table.any fun r => r.1 ≤ n && n ≤ r.2

/-- The property White_Space, as inclusive ranges in ascending order. -/
def spaceRanges : List (Nat × Nat) :=
  [(0x09, 0x0D), (0x20, 0x20), (0x85, 0x85), (0xA0, 0xA0), (0x1680, 0x1680),
    (0x2000, 0x200A), (0x2028, 0x2029), (0x202F, 0x202F), (0x205F, 0x205F), (0x3000, 0x3000)]

def isSpace (c : Char) : Bool :=
  inRanges spaceRanges c.toNat

def isSeparator (c : Char) : Bool :=
  0x1C ≤ c.toNat && c.toNat ≤ 0x1F

def isBlank (c : Char) : Bool :=
  isSpace c || isSeparator c

/-- A text without the characters of a class at its end. -/
def trimEndBy (p : Char → Bool) (cs : List Char) : List Char :=
  (cs.reverse.dropWhile p).reverse

/-- A text without the characters of a class at its two ends. -/
def trimBy (p : Char → Bool) (cs : List Char) : List Char :=
  trimEndBy p (cs.dropWhile p)

/-- A text without its leading and trailing blanks. -/
def stripped (s : String) : String :=
  String.ofList (trimBy isBlank s.toList)

/-- A text without its trailing blanks. -/
def strippedEnd (s : String) : String :=
  String.ofList (trimEndBy isBlank s.toList)

theorem isSpace_of_isWhitespace {c : Char} (h : c.isWhitespace = true) : isSpace c = true := by
  simp only [Char.isWhitespace, Bool.or_eq_true, decide_eq_true_eq] at h
  rcases h with ((h | h) | h) | h <;> subst h <;> decide

end Conventions.Text
