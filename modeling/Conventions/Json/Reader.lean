import Conventions.Json.Value
import Conventions.Number.Numeral
import Conventions.Text.Hex

/-!
# Reading JSON

The standard grammar, with the words for infinity and not-a-number as further
numbers. An integer may have at most 4300 digits, unless the reader is told
another limit or none. Half of a surrogate pair standing alone denotes no
character and is read as U+FFFD.

The fuel of the mutual readers bounds the nesting and the number of items; a
document has fewer of both than characters.
-/

namespace Conventions.Json

def isJsonBlank (c : Char) : Bool :=
  c == ' ' || c == '\t' || c == '\n' || c == '\r'

def skipBlanks (cs : List Char) : List Char :=
  cs.dropWhile isJsonBlank

/-- Four hexadecimal digits. -/
def readUnit : List Char → Option (Nat × List Char)
  | a :: b :: c :: d :: rest => do
    let a ← Text.hexValue? a
    let b ← Text.hexValue? b
    let c ← Text.hexValue? c
    let d ← Text.hexValue? d
    some (((a * 16 + b) * 16 + c) * 16 + d, rest)
  | _ => none

def isHighSurrogate (n : Nat) : Bool := 0xD800 ≤ n && n ≤ 0xDBFF

def isLowSurrogate (n : Nat) : Bool := 0xDC00 ≤ n && n ≤ 0xDFFF

/-- The character of one UTF-16 unit. -/
def unitChar (n : Nat) : Char :=
  if isHighSurrogate n || isLowSurrogate n then '\uFFFD' else Char.ofNat n

/-- The character after a backslash. -/
def readEscape : List Char → Option (Char × List Char)
  | '"' :: cs => some ('"', cs)
  | '\\' :: cs => some ('\\', cs)
  | '/' :: cs => some ('/', cs)
  | 'b' :: cs => some ('\x08', cs)
  | 'f' :: cs => some ('\x0c', cs)
  | 'n' :: cs => some ('\n', cs)
  | 'r' :: cs => some ('\r', cs)
  | 't' :: cs => some ('\t', cs)
  | 'u' :: cs => do
    let (high, rest) ← readUnit cs
    match rest with
    | '\\' :: 'u' :: more =>
      if isHighSurrogate high then
        let (low, rest') ← readUnit more
        if isLowSurrogate low then
          some (Char.ofNat (0x10000 + (high - 0xD800) * 0x400 + (low - 0xDC00)), rest')
        else some (unitChar high, rest)
      else some (unitChar high, rest)
    | _ => some (unitChar high, rest)
  | _ => none

/-- The characters up to the closing quote, and the rest after it. -/
def readString : (fuel : Nat) → List Char → Option (List Char × List Char)
  | 0, _ => none
  | _ + 1, [] => none
  | _ + 1, '"' :: cs => some ([], cs)
  | fuel + 1, '\\' :: cs => do
    let (c, rest) ← readEscape cs
    let (text, rest') ← readString fuel rest
    some (c :: text, rest')
  | fuel + 1, c :: cs =>
    if c.toNat < 0x20 then none
    else do
      let (text, rest) ← readString fuel cs
      some (c :: text, rest)

def digitRun (cs : List Char) : List Char × List Char :=
  (cs.takeWhile Char.isDigit, cs.dropWhile Char.isDigit)

/-- A fraction: the point and at least one digit. -/
def readFraction (cs : List Char) : List Char × List Char :=
  match cs with
  | '.' :: rest =>
    match digitRun rest with
    | ([], _) => ([], cs)
    | (ds, rest') => ('.' :: ds, rest')
  | _ => ([], cs)

/-- An exponent: its letter, an optional sign and at least one digit. -/
def readExponent (cs : List Char) : List Char × List Char :=
  match cs with
  | e :: rest =>
    if e = 'e' ∨ e = 'E' then
      let (sign, rest') := match rest with
        | '+' :: more => (['+'], more)
        | '-' :: more => (['-'], more)
        | _ => ([], rest)
      match digitRun rest' with
      | ([], _) => ([], cs)
      | (ds, more) => (e :: sign ++ ds, more)
    else ([], cs)
  | [] => ([], cs)

/-- Zero, or digits that start with another digit. -/
def readWhole : List Char → Option (List Char × List Char)
  | '0' :: cs => some (['0'], cs)
  | cs =>
    match digitRun cs with
    | ([], _) => none
    | (ds, rest) => some (ds, rest)

/-- A minus sign, or nothing. -/
def readSign : List Char → List Char × List Char
  | '-' :: cs => (['-'], cs)
  | cs => ([], cs)

/-- A number; an integer may have no more digits than the limit. -/
def readNumber (limit : Option Nat) (cs : List Char) : Option (Json × List Char) := do
  let (sign, body) := readSign cs
  let (whole, rest) ← readWhole body
  let (fraction, rest') := readFraction rest
  let (power, more) := readExponent rest'
  if fraction.isEmpty && power.isEmpty then
    if limit.any fun most => most < whole.length then none
    else
      let n := Number.ofDigits (whole.map fun c => c.toNat - 0x30)
      some (.int (if sign.isEmpty then (n : Int) else -(n : Int)), more)
  else some (.real (String.ofList (sign ++ whole ++ fraction ++ power)), more)

/-- Words that stand for a value. -/
def keywords : List (String × Json) :=
  [("null", .null), ("true", .bool true), ("false", .bool false), ("NaN", .real "NaN"),
    ("Infinity", .real "Infinity"), ("-Infinity", .real "-Infinity")]

def readKeyword (cs : List Char) : Option (Json × List Char) :=
  (keywords.find? fun k => k.1.toList.isPrefixOf cs).map fun k => (k.2, cs.drop k.1.length)

section
variable (limit : Option Nat)

mutual

/-- A value at the start of a text that has no blank in front. -/
def readValue : (fuel : Nat) → List Char → Option (Json × List Char)
  | 0, _ => none
  | _ + 1, '"' :: cs => do
    let (text, rest) ← readString (cs.length + 1) cs
    some (.str (String.ofList text), rest)
  | fuel + 1, '[' :: cs =>
    match skipBlanks cs with
    | ']' :: rest => some (.arr [], rest)
    | start => do
      let (items, rest) ← readItems fuel start
      some (.arr items, rest)
  | fuel + 1, '\x7b' :: cs =>
    match skipBlanks cs with
    | '\x7d' :: rest => some (.obj [], rest)
    | start => do
      let (members, rest) ← readMembers fuel start
      some (.obj members, rest)
  | _ + 1, cs => readKeyword cs <|> readNumber limit cs

/-- The items of an array up to its bracket. -/
def readItems : (fuel : Nat) → List Char → Option (List Json × List Char)
  | 0, _ => none
  | fuel + 1, cs => do
    let (item, rest) ← readValue fuel cs
    match skipBlanks rest with
    | ',' :: more =>
      let (items, rest') ← readItems fuel (skipBlanks more)
      some (item :: items, rest')
    | ']' :: more => some ([item], more)
    | _ => none

/-- The members of an object up to its brace. -/
def readMembers : (fuel : Nat) → List Char → Option (List (String × Json) × List Char)
  | 0, _ => none
  | fuel + 1, '"' :: cs => do
    let (key, rest) ← readString (cs.length + 1) cs
    match skipBlanks rest with
    | ':' :: more =>
      let (value, rest') ← readValue fuel (skipBlanks more)
      match skipBlanks rest' with
      | ',' :: more' =>
        let (members, rest'') ← readMembers fuel (skipBlanks more')
        some ((String.ofList key, value) :: members, rest'')
      | '\x7d' :: more' => some ([(String.ofList key, value)], more')
      | _ => none
    | _ => none
  | _ + 1, _ => none

end

/-- The value of a document with integers of at most so many digits, or `none` if the text is no
such document. -/
def readWithin? (cs : List Char) : Option Json :=
  match readValue limit (2 * cs.length + 1) (skipBlanks cs) with
  | some (v, rest) => if (skipBlanks rest).isEmpty then some v else none
  | none => none

end

/-- The value of a document, or `none` if the text is no JSON document. -/
def read? (cs : List Char) : Option Json :=
  readWithin? (some Number.maxDigits) cs

end Conventions.Json
