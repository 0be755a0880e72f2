/-!
# Identifier casing

Every identifier has one of five casing styles or none. The styles are told
apart by ASCII letters, digits and one separator; the rules are tried in order
and the first that fits decides. A lower-case word without separators is camel
case and a capitalised one Pascal case, since those rules come before the ones
for separated words.
-/

namespace Conventions

/-- The casing styles of identifiers. -/
inductive Casing where
  | unknown
  | camel
  | pascal
  | snake
  | kebab
  | upperSnake
  deriving DecidableEq, Repr

namespace Casing

/-- Each style written in itself. -/
def name : Casing → String
  | unknown => "unknown"
  | camel => "camelCase"
  | pascal => "PascalCase"
  | snake => "snake_case"
  | kebab => "kebab-case"
  | upperSnake => "UPPER_SNAKE_CASE"

def all : List Casing :=
  [unknown, camel, pascal, snake, kebab, upperSnake]

def ofName? (s : String) : Option Casing :=
  all.find? fun c => c.name == s

theorem ofName?_name (c : Casing) : ofName? c.name = some c := by
  cases c <;> rfl

def isUpperOrDigit (c : Char) : Bool := c.isUpper || c.isDigit

def isLowerOrDigit (c : Char) : Bool := c.isLower || c.isDigit

/-- Words over a class with single separators between them; `fresh` at the start of a word,
where the text may not end and no separator may stand. -/
def wordsFrom (ok : Char → Bool) (sep : Char) (fresh : Bool) : List Char → Bool
  | [] => !fresh
  | c :: cs =>
    if c = sep then !fresh && wordsFrom ok sep true cs
    else ok c && wordsFrom ok sep false cs

/-- One or more nonempty words over a class, single separators between them. -/
def words (ok : Char → Bool) (sep : Char) (cs : List Char) : Bool :=
  wordsFrom ok sep true cs

/-- A first letter of one class, then letters and digits. -/
def initialed (first : Char → Bool) : List Char → Bool
  | [] => false
  | c :: cs => first c && cs.all Char.isAlphanum

/-- The rules in the order in which they are tried. -/
def rules : List ((List Char → Bool) × Casing) :=
  [(fun cs => words isUpperOrDigit '_' cs && cs.contains '_', upperSnake),
    (initialed Char.isLower, camel),
    (initialed Char.isUpper, pascal),
    (words isLowerOrDigit '_', snake),
    (words isLowerOrDigit '-', kebab)]

/-- The casing style of an identifier. -/
def classify (s : String) : Casing :=
  match rules.find? fun r => r.1 s.toList with
  | some r => r.2
  | none => unknown

/-- A style was recognised. -/
def isKnown (c : Casing) : Bool := c != unknown

end Casing

end Conventions
