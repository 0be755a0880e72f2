import Conventions.Number.Numeral
import Conventions.Settings.Datum
import Conventions.Text.Hex
import Conventions.Text.Search

/-!
# Scalars of TOML documents

Keys, strings, dates and numbers. Every reader takes the text at its position and
returns what it read together with the rest. Line ends are single line feeds here.
-/

namespace Conventions.Toml

/-- Why a document cannot be read. -/
inductive Fault where
  | malformed
  /-- A whole number with too many digits. -/
  | tooManyDigits (digits : Nat)
  deriving DecidableEq, Repr

abbrev Reader (α : Type) := List Char → Except Fault (α × List Char)

def isInlineBlank (c : Char) : Bool := c == ' ' || c == '\t'

def skipInline (cs : List Char) : List Char := cs.dropWhile isInlineBlank

def skipLines (cs : List Char) : List Char :=
  cs.dropWhile fun c => isInlineBlank c || c == '\n'

def isControl (c : Char) : Bool := c.toNat < 0x20 || c.toNat == 0x7F

/-- Control characters that a string or comment may not hold. -/
def isIllegal (multiline : Bool) (c : Char) : Bool :=
  isControl c && c != '\t' && !(multiline && c == '\n')

/-- The rest after a comment, if there is one at this position. -/
def skipComment (cs : List Char) : Except Fault (List Char) :=
  match cs with
  | '#' :: rest =>
    if (rest.takeWhile (· != '\n')).any (isIllegal false) then .error .malformed
    else .ok (rest.dropWhile (· != '\n'))
  | _ => .ok cs

def isBareKeyChar (c : Char) : Bool :=
  c.isAlphanum || c == '-' || c == '_'

/-- A character given by a fixed number of hexadecimal digits. -/
def readHexChar (width : Nat) : Reader Char := fun cs =>
  match (cs.take width).mapM Text.hexValue? with
  | some ds =>
    let n := ds.foldl (fun n d => 16 * n + d) 0
    if ds.length = width ∧ n.isValidChar then .ok (Char.ofNat n, cs.drop width)
    else .error .malformed
  | none => .error .malformed

/-- What a backslash at the end of a line joins: blanks, line feeds and blanks again. -/
def continueLine (cs : List Char) : Except Fault (List Char) :=
  match cs with
  | '\n' :: rest => .ok (skipLines rest)
  | _ =>
    match skipInline cs with
    | [] => .ok []
    | '\n' :: rest => .ok (skipLines rest)
    | _ => .error .malformed

/-- What an escape stands for, after its backslash. -/
def readEscape (multiline : Bool) : Reader (List Char) := fun cs =>
  match cs with
  | 'b' :: rest => .ok (['\x08'], rest)
  | 't' :: rest => .ok (['\t'], rest)
  | 'n' :: rest => .ok (['\n'], rest)
  | 'f' :: rest => .ok (['\x0c'], rest)
  | 'r' :: rest => .ok (['\r'], rest)
  | '"' :: rest => .ok (['"'], rest)
  | '\\' :: rest => .ok (['\\'], rest)
  | 'u' :: rest => do
    let (c, rest') ← readHexChar 4 rest
    .ok ([c], rest')
  | 'U' :: rest => do
    let (c, rest') ← readHexChar 8 rest
    .ok ([c], rest')
  | c :: _ =>
    if multiline && (isInlineBlank c || c == '\n') then do
      let rest ← continueLine cs
      .ok ([], rest)
    else .error .malformed
  | [] => .error .malformed

def tripleQuote : List Char := ['"', '"', '"']

/-- A string with escapes, up to and including its closing quotes. -/
def readBasicBody (multiline : Bool) : (fuel : Nat) → Reader (List Char)
  | 0, _ => .error .malformed
  | _ + 1, [] => .error .malformed
  | fuel + 1, '\\' :: cs => do
    let (escaped, rest) ← readEscape multiline cs
    let (text, rest') ← readBasicBody multiline fuel rest
    .ok (escaped ++ text, rest')
  | fuel + 1, c :: cs =>
    if c == '"' && !multiline then .ok ([], cs)
    else if c == '"' && tripleQuote.isPrefixOf (c :: cs) then .ok ([], cs.drop 2)
    else if isIllegal multiline c then .error .malformed
    else do
      let (text, rest) ← readBasicBody multiline fuel cs
      .ok (c :: text, rest)

def readBasic (multiline : Bool) : Reader (List Char) := fun cs =>
  readBasicBody multiline (cs.length + 1) cs

/-- The characters up to a closing quote, without escapes. -/
def readUntil (quote : List Char) (multiline : Bool) : Reader (List Char)
  | [] => .error .malformed
  | c :: cs =>
    if quote.isPrefixOf (c :: cs) then .ok ([], (c :: cs).drop quote.length)
    else if isIllegal multiline c then .error .malformed
    else do
      let (text, rest) ← readUntil quote multiline cs
      .ok (c :: text, rest)

/-- Up to two more quotes directly after three closing ones belong to the string. -/
def extraQuotes (quote : Char) (text rest : List Char) : List Char × List Char :=
  match rest with
  | a :: b :: more =>
    if a == quote && b == quote then (text ++ [quote, quote], more)
    else if a == quote then (text ++ [quote], b :: more)
    else (text, rest)
  | [a] => if a == quote then (text ++ [quote], []) else (text, rest)
  | [] => (text, rest)

/-- The text without the line feed that directly follows opening quotes. -/
def dropFirstLineFeed : List Char → List Char
  | '\n' :: cs => cs
  | cs => cs

/-- A string at its opening quote. -/
def readString : Reader (List Char) := fun cs =>
  match cs with
  | '"' :: '"' :: '"' :: rest => do
    let (text, rest') ← readBasic true (dropFirstLineFeed rest)
    .ok (extraQuotes '"' text rest')
  | '"' :: rest => readBasic false rest
  | '\'' :: '\'' :: '\'' :: rest => do
    let (text, rest') ← readUntil ['\'', '\'', '\''] true (dropFirstLineFeed rest)
    .ok (extraQuotes '\'' text rest')
  | '\'' :: rest => readUntil ['\''] false rest
  | _ => .error .malformed

/-- One part of a key: bare characters or a string on one line. -/
def readKeyPart : Reader String := fun cs =>
  match cs with
  | '"' :: rest => do
    let (text, rest') ← readBasic false rest
    .ok (String.ofList text, rest')
  | '\'' :: rest => do
    let (text, rest') ← readUntil ['\''] false rest
    .ok (String.ofList text, rest')
  | _ =>
    match cs.takeWhile isBareKeyChar with
    | [] => .error .malformed
    | part => .ok (String.ofList part, cs.dropWhile isBareKeyChar)

/-- The parts of a dotted key, blanks around the dots allowed. -/
def readKeyParts : (fuel : Nat) → Reader (List String)
  | 0, _ => .error .malformed
  | fuel + 1, cs => do
    let (part, rest) ← readKeyPart cs
    match skipInline rest with
    | '.' :: more =>
      let (parts, rest') ← readKeyParts fuel (skipInline more)
      .ok (part :: parts, rest')
    | rest' => .ok ([part], rest')

def readKey : Reader (List String) := fun cs =>
  readKeyParts (cs.length + 1) cs

/-- A number of exactly two digits within bounds. -/
def twoDigits? (low high : Nat) : List Char → Option (Nat × List Char)
  | a :: b :: rest =>
    if a.isDigit && b.isDigit then
      let n := Number.ofDigits [a.toNat - 0x30, b.toNat - 0x30]
      if low ≤ n ∧ n ≤ high then some (n, rest) else none
    else none
  | _ => none

/-- The rest after one particular character. -/
def after? (c : Char) : List Char → Option (List Char)
  | d :: rest => if d = c then some rest else none
  | [] => none

/-- Fractions of a second, as microseconds; digits past the sixth are dropped. -/
def readMicros (cs : List Char) : Nat × List Char :=
  match cs with
  | '.' :: rest =>
    match rest.takeWhile Char.isDigit with
    | [] => (0, cs)
    | ds =>
      let six := (ds ++ List.replicate 6 '0').take 6
      (Number.ofDigits (six.map fun c => c.toNat - 0x30), rest.drop ds.length)
  | _ => (0, cs)

def readClock? (cs : List Char) : Option (Clock × List Char) := do
  let (hour, cs) ← twoDigits? 0 23 cs
  let cs ← after? ':' cs
  let (minute, cs) ← twoDigits? 0 59 cs
  let cs ← after? ':' cs
  let (second, cs) ← twoDigits? 0 59 cs
  let (micros, cs) := readMicros cs
  some (⟨hour, minute, second, micros⟩, cs)

def readDate? (cs : List Char) : Option (Date × List Char) := do
  let (century, cs) ← twoDigits? 0 99 cs
  let (year, cs) ← twoDigits? 0 99 cs
  let cs ← after? '-' cs
  let (month, cs) ← twoDigits? 1 12 cs
  let cs ← after? '-' cs
  let (day, cs) ← twoDigits? 1 31 cs
  some (⟨century * 100 + year, month, day⟩, cs)

/-- An offset from universal time in minutes. -/
def readOffset? (cs : List Char) : Option (Int × List Char) :=
  match cs with
  | c :: rest =>
    if c = 'Z' ∨ c = 'z' then some (0, rest)
    else if c = '+' ∨ c = '-' then do
      let (hours, rest) ← twoDigits? 0 23 rest
      let rest ← after? ':' rest
      let (minutes, rest) ← twoDigits? 0 59 rest
      let total : Int := hours * 60 + minutes
      some (if c = '-' then -total else total, rest)
    else none
  | [] => none

/-- A time of day directly after a date. -/
def readTimePart? (cs : List Char) : Option (Clock × Option Int × List Char) :=
  match cs with
  | c :: rest =>
    if c = 'T' ∨ c = 't' ∨ c = ' ' then
      match readClock? rest with
      | some (t, rest') =>
        match readOffset? rest' with
        | some (offset, more) => some (t, some offset, more)
        | none => some (t, none, rest')
      | none => none
    else none
  | [] => none

/-- A date with or without a time of day; `none` if no date stands here. -/
def readDateTime? (cs : List Char) : Option (Except Fault (Moment × List Char)) :=
  match readDate? cs with
  | none => none
  | some (d, rest) =>
    if d.isValid then
      match readTimePart? rest with
      | some (t, offset, more) => some (.ok (.both d t offset, more))
      | none => some (.ok (.date d, rest))
    else some (.error .malformed)

/-- Digits of a base with single underscores between them, from the first digit on. -/
def baseDigits (base : Nat) (cs : List Char) : List Nat × List Char :=
  match cs with
  | '_' :: c :: rest =>
    match Text.hexValue? c with
    | some d =>
      if d < base then
        let (ds, rest') := baseDigits base rest
        (d :: ds, rest')
      else ([], cs)
    | none => ([], cs)
  | c :: rest =>
    match Text.hexValue? c with
    | some d =>
      if d < base then
        let (ds, rest') := baseDigits base rest
        (d :: ds, rest')
      else ([], cs)
    | none => ([], cs)
  | [] => ([], [])
termination_by cs.length

/-- Like `baseDigits`, but an underscore may not come first. -/
def leadingDigits (base : Nat) (cs : List Char) : List Nat × List Char :=
  match cs with
  | '_' :: _ => ([], cs)
  | _ => baseDigits base cs

def basePrefixes : List (Char × Nat) := [('x', 16), ('b', 2), ('o', 8)]

/-- A number in another base: a zero, the letter of the base and digits. -/
def readBased? (cs : List Char) : Option (Int × List Char) :=
  match cs with
  | '0' :: letter :: rest =>
    match basePrefixes.find? fun b => b.1 == letter with
    | some (_, base) =>
      match leadingDigits base rest with
      | ([], _) => none
      | (ds, rest') => some ((ds.foldl (fun n d => n * base + d) 0 : Nat), rest')
    | none => none
  | _ => none

/-- The whole part of a decimal number: a zero by itself or digits. -/
def wholePart? (cs : List Char) : Option (List Nat × List Char) :=
  match cs with
  | '0' :: rest => some ([0], rest)
  | _ =>
    match leadingDigits 10 cs with
    | ([], _) => none
    | found => some found

/-- A fraction of a decimal number; empty if none stands here. -/
def fractionPart (cs : List Char) : List Nat × List Char :=
  match cs with
  | '.' :: rest =>
    match leadingDigits 10 rest with
    | ([], _) => ([], cs)
    | found => found
  | _ => ([], cs)

/-- An exponent of a decimal number. -/
def exponentPart? (cs : List Char) : Option (Int × List Char) :=
  match cs with
  | e :: rest =>
    if e = 'e' ∨ e = 'E' then
      let (negative, body) := Number.sign rest
      match leadingDigits 10 body with
      | ([], _) => none
      | (ds, rest') =>
        some (if negative then -(Number.ofDigits ds : Int) else Number.ofDigits ds, rest')
    else none
  | [] => none

/-- A decimal number; a fraction or an exponent makes it a floating-point number. -/
def readDecimal? (cs : List Char) : Option (Except Fault (Datum × List Char)) :=
  let (negative, body) := Number.sign cs
  match wholePart? body with
  | none => none
  | some (whole, rest) =>
    let (fraction, rest') := fractionPart rest
    match exponentPart? rest', fraction with
    | none, [] =>
      if Number.maxDigits < whole.length then some (.error (.tooManyDigits whole.length))
      else
        let n : Int := Number.ofDigits whole
        some (.ok (.int (if negative then -n else n), rest'))
    | power, _ =>
      let (e, more) := power.getD (0, rest')
      let x := Number.ofDecimal (Number.ofDigits (whole ++ fraction)) (e - fraction.length)
      some (.ok (.real (if negative then -x else x), more))

/-- The words for infinity and not-a-number. -/
def specialWords : List (String × Float) :=
  [("inf", 1.0 / 0.0), ("nan", 0.0 / 0.0), ("-inf", -(1.0 / 0.0)), ("+inf", 1.0 / 0.0),
    ("-nan", 0.0 / 0.0), ("+nan", 0.0 / 0.0)]

/-- A date, a time or a number. -/
def readPlain : Reader Datum := fun cs =>
  match readDateTime? cs with
  | some result => do
    let (m, rest) ← result
    .ok (.moment m, rest)
  | none =>
    match readClock? cs with
    | some (t, rest) => .ok (.moment (.time t), rest)
    | none =>
      match readBased? cs with
      | some (n, rest) => .ok (.int n, rest)
      | none =>
        match readDecimal? cs with
        | some result => result
        | none =>
          match specialWords.find? fun w => w.1.toList.isPrefixOf cs with
          | some (word, x) => .ok (.real x, cs.drop word.length)
          | none => .error .malformed

end Conventions.Toml
