import Conventions.Number.Numeral
import Conventions.Text.Hex
import Conventions.Text.Newline
import Conventions.Text.Search
import Conventions.Text.WordChar

/-!
# Literals

The parameters of an action are written as literals: numbers, texts, octets, the
words for truth and absence, an ellipsis, and tuples, sets and tables of them. Only whether a
text is such a literal matters here, and whether its value can be a member of a set
or a key of a table: sets and tables cannot, nor can tuples with one inside.
-/

namespace Conventions.Markup

open Conventions.Text

/-- A part of a literal. -/
inductive Token where
  | number (imaginary : Bool)
  | text (octets : Bool)
  | word (name : String)
  | ellipsis
  | mark (c : Char)
  | lineEnd
  deriving DecidableEq, Repr

/-- The most digits of a whole number. -/
def maxWholeDigits : Nat := Number.maxDigits

/-- The most brackets that may be open at a time. -/
def maxBrackets : Nat := 200

/-- Digits with single underscores between them, from the start of a text, and the rest. The digits
are empty if the text starts with none. -/
def digitsBy (p : Char → Bool) : List Char → List Char × List Char
  | [] => ([], [])
  | [c] => if p c then ([c], []) else ([], [c])
  | c :: d :: cs =>
    if !p c then ([], c :: d :: cs)
    else if d = '_' then
      match cs with
      | e :: _ =>
        if p e then
          let (ds, rest) := digitsBy p cs
          (c :: ds, rest)
        else ([c], d :: cs)
      | [] => ([c], d :: cs)
    else
      let (ds, rest) := digitsBy p (d :: cs)
      (c :: ds, rest)

def decimalDigits (cs : List Char) : List Char × List Char := digitsBy Char.isDigit cs

/-- The digits of a base that is marked by a letter. -/
def digitsOfBase? (letter : Char) : Option (Char → Bool) :=
  match letter.toLower with
  | 'x' => some fun c => (hexValue? c.toLower).isSome
  | 'o' => some fun c => '0' ≤ c && c ≤ '7'
  | 'b' => some fun c => c == '0' || c == '1'
  | _ => none

/-- The rest of a text after a number with a marked base, if there is one. -/
def afterMarked? (cs : List Char) : Option (List Char) :=
  match cs with
  | '0' :: letter :: more =>
    match digitsOfBase? letter with
    | some p =>
      match digitsBy p (if more.head? == some '_' then more.drop 1 else more) with
      | ([], _) => none
      | (_, rest) => some rest
    | none => none
  | _ => none

/-- An exponent at the start of a text, if there is one: whether there is, and the rest. -/
def afterExponent (cs : List Char) : Bool × List Char :=
  match cs with
  | e :: more =>
    if e.toLower = 'e' then
      match decimalDigits (Number.sign more).2 with
      | ([], _) => (false, cs)
      | (_, rest) => (true, rest)
    else (false, cs)
  | [] => (false, [])

/-- A decimal number at the start of a text: whether it is imaginary, and the rest. -/
def readDecimal? (cs : List Char) : Option (Bool × List Char) :=
  let (whole, rest) := decimalDigits cs
  let (pointed, fraction, rest) :=
    match rest with
    | '.' :: more =>
      let (ds, rest) := decimalDigits more
      (true, ds, rest)
    | _ => (false, [], rest)
  let (raised, rest) := afterExponent rest
  let (imaginary, rest) :=
    match rest with
    | c :: more => if c.toLower = 'j' then (true, more) else (false, rest)
    | [] => (false, [])
  if whole.isEmpty && fraction.isEmpty then none
  else if pointed || raised || imaginary then some (imaginary, rest)
  else if whole.head? == some '0' && whole.any (· != '0') then none
  else if maxWholeDigits < whole.length then none
  else some (false, rest)

/-- A number at the start of a text; no letter may follow it. -/
def readNumber? (cs : List Char) : Option (Bool × List Char) :=
  let read := match afterMarked? cs with
    | some rest => some (false, rest)
    | none => readDecimal? cs
  read.filter fun r => !(r.2.head?.any isWordChar)

/-- Whether what follows the letter of an escape is as that letter asks. -/
def escapeFits (octets : Bool) (letter : Char) (cs : List Char) : Bool :=
  let hex (n : Nat) : Bool :=
    (cs.take n).length == n && (cs.take n).all fun c => (hexValue? c.toLower).isSome
  match octets, letter with
  | _, 'x' => hex 2
  | false, 'u' => hex 4
  | false, 'U' =>
    hex 8 && (cs.take 8).foldl (fun n c => 16 * n + (hexValue? c.toLower).getD 0) 0 ≤ 0x10FFFF
  | false, 'N' => cs.head? == some '\x7b' && (cs.drop 1).head? != some '\x7d' && cs.contains '\x7d'
  | _, _ => true

/-- How a text is written: with escapes or without, octets or characters, on one line or not. -/
structure Wording where
  escaped : Bool
  octets : Bool
  long : Bool
  quote : Char

/-- The rest after a text whose opening quote has been read. -/
def afterText? (w : Wording) : List Char → Option (List Char)
  | [] => none
  | '\\' :: c :: cs =>
    if c = '\x00' || (w.octets && 0x80 ≤ c.toNat) then none
    else if w.escaped && !escapeFits w.octets c cs then none
    else afterText? w cs
  | c :: cs =>
    if c = w.quote then
      if !w.long then some cs
      else
        match cs with
        | d :: e :: more => if d = c ∧ e = c then some more else afterText? w cs
        | _ => none
    else if (c = '\n' && !w.long) || c = '\x00' || (w.octets && 0x80 ≤ c.toNat) then none
    else afterText? w cs

/-- What letters before a quote say: whether the text has escapes and whether it is octets. -/
def wordingOf? (letters : String) : Option (Bool × Bool) :=
  match letters with
  | "" | "u" => some (true, false)
  | "r" => some (false, false)
  | "b" => some (true, true)
  | "br" | "rb" => some (false, true)
  | _ => none

/-- A text at the start of the given text: whether it is octets, and the rest. -/
def readText? (cs : List Char) : Option (Bool × List Char) :=
  let letters := cs.takeWhile Char.isAlpha
  match wordingOf? (String.ofList (letters.map Char.toLower)), cs.drop letters.length with
  | some (escaped, octets), q :: more =>
    if q = '"' ∨ q = '\'' then
      let long := more.take 2 == [q, q]
      (afterText? ⟨escaped, octets, long, q⟩ (if long then more.drop 2 else more)).map
        fun rest => (octets, rest)
    else none
  | _, _ => none

/-- The rest of a text after what separates its tokens, if it starts with that. Lines may end inside
brackets and after a backslash. -/
def afterGap? (depth : Nat) (cs : List Char) : Option (List Char) :=
  match cs with
  | '\\' :: '\n' :: c :: rest => some (c :: rest)
  | '#' :: rest =>
    if rest.contains '\x00' then none else some (rest.dropWhile (· != '\n'))
  | c :: rest =>
    if c = ' ' ∨ c = '\t' ∨ c = '\x0c' ∨ (c = '\n' ∧ 0 < depth) then some rest else none
  | [] => none

/-- The first token of a text and the rest. -/
def readToken? (cs : List Char) : Option (Token × List Char) :=
  match cs with
  | [] => none
  | '.' :: '.' :: '.' :: rest => some (.ellipsis, rest)
  | c :: rest =>
    if c = '\n' then some (.lineEnd, rest)
    else if "(){},:+-".toList.contains c then some (.mark c, rest)
    else if c.isDigit || c == '.' then (readNumber? cs).map fun r => (.number r.1, r.2)
    else
      match readText? cs with
      | some (octets, rest) => some (.text octets, rest)
      | none =>
        match cs.takeWhile isWordChar with
        | [] => none
        | name => some (.word (String.ofList name), cs.drop name.length)

/-- The brackets that are open after a token. -/
def depthAfter (depth : Nat) (t : Token) : Nat :=
  match t with
  | .mark '(' | .mark '\x7b' => depth + 1
  | .mark ')' | .mark '\x7d' => depth - 1
  | _ => depth

/-- The tokens of a text that follows `depth` open brackets. -/
def tokens? : (fuel : Nat) → (depth : Nat) → List Char → Option (List Token)
  | _, _, [] => some []
  | 0, _, _ => none
  | fuel + 1, depth, cs =>
    match afterGap? depth cs with
    | some rest => tokens? fuel depth rest
    | none =>
      match readToken? cs with
      | some (t, rest) =>
        if maxBrackets < depthAfter depth t then none
        else (tokens? fuel (depthAfter depth t) rest).map (t :: ·)
      | none => none

/-- What of a value decides where it may stand. -/
inductive Shape where
  | number (imaginary signed : Bool)
  | plain
  /-- No member of a set and no key of a table. -/
  | unkeyed
  deriving DecidableEq, Repr

def Shape.isKey (s : Shape) : Bool := s != .unkeyed

/-- The shape of a tuple. -/
def Shape.tuple (members : List Shape) : Shape :=
  if members.all Shape.isKey then .plain else .unkeyed

/-- Things between commas: the things, whether a comma stands after the last, and the rest. -/
def series? {α : Type} (one : List Token → Option (α × List Token)) :
    (fuel : Nat) → List Token → Option (List α × Bool × List Token)
  | 0, _ => none
  | fuel + 1, ts =>
    match one ts with
    | none => none
    | some (a, .mark ',' :: rest) =>
      match rest with
      | [] | .mark ')' :: _ | .mark '\x7d' :: _ | .lineEnd :: _ => some ([a], true, rest)
      | _ => (series? one fuel rest).map fun r => (a :: r.1, r.2)
    | some (a, rest) => some ([a], false, rest)

/-- The shape of values between commas: one without a comma is itself, others form a tuple. -/
def Shape.joined (members : List Shape) (comma : Bool) : Shape :=
  match members, comma with
  | [s], false => s
  | _, _ => .tuple members

/-- A member of a set, or a key of a table with its value. -/
def member? (value : List Token → Option (Shape × List Token)) (ts : List Token) :
    Option ((Shape × Bool) × List Token) :=
  match value ts with
  | some (key, .mark ':' :: rest) => (value rest).map fun v => ((key, true), v.2)
  | some (key, rest) => some ((key, false), rest)
  | none => none

/-- A value without a sign; `value` reads the values in brackets. -/
def atom? (value : List Token → Option (Shape × List Token)) (ts : List Token) :
    Option (Shape × List Token) :=
  match ts with
  | .number imaginary :: rest => some (.number imaginary false, rest)
  | .text octets :: rest =>
    let more := rest.takeWhile fun t => t matches .text _
    if more.all (· == .text octets) then some (.plain, rest.drop more.length) else none
  | .ellipsis :: rest => some (.plain, rest)
  | .word "set" :: .mark '(' :: .mark ')' :: rest => some (.unkeyed, rest)
  | .word name :: rest =>
    if ["True", "False", "None"].contains name then some (.plain, rest) else none
  | .mark '(' :: .mark ')' :: rest => some (.plain, rest)
  | .mark '(' :: more =>
    match series? value more.length more with
    | some (members, comma, .mark ')' :: rest) => some (.joined members comma, rest)
    | _ => none
  | .mark '\x7b' :: .mark '\x7d' :: rest => some (.unkeyed, rest)
  | .mark '\x7b' :: more =>
    match series? (member? value) more.length more with
    | some (members, _, .mark '\x7d' :: rest) =>
      let valued := members.map (·.2)
      if members.all (·.1.isKey) ∧ (valued.all id ∨ valued.all (!·)) then some (.unkeyed, rest)
      else none
    | _ => none
  | _ => none

def isSign (t : Token) : Bool := t == .mark '+' || t == .mark '-'

/-- A value that may have a sign, if it is a number. -/
def signed? (value : List Token → Option (Shape × List Token)) (ts : List Token) :
    Option (Shape × List Token) :=
  match ts with
  | t :: rest =>
    if isSign t then
      match atom? value rest with
      | some (.number imaginary false, rest') => some (.number imaginary true, rest')
      | _ => none
    else atom? value ts
  | [] => none

/-- A value: one with a sign, or the sum of a number and an imaginary one. -/
def sum? (value : List Token → Option (Shape × List Token)) (ts : List Token) :
    Option (Shape × List Token) :=
  match signed? value ts with
  | some (.number false signed, t :: rest) =>
    if isSign t then
      match atom? value rest with
      | some (.number true false, rest') => some (.plain, rest')
      | _ => none
    else some (.number false signed, t :: rest)
  | r => r

/-- A value with at most so many brackets open inside. -/
def value? : (brackets : Nat) → List Token → Option (Shape × List Token)
  | 0 => sum? fun _ => none
  | brackets + 1 => sum? (value? brackets)

/-- Whether a text is a literal. -/
def isLiteral (text : List Char) : Bool :=
  let cs := unifyNewlines text
  match tokens? (cs.length + 1) 0 cs with
  | none => false
  | some ts =>
    let ts := ts.dropWhile (· == .lineEnd)
    match series? (value? maxBrackets) ts.length ts with
    | some (_, _, rest) => rest.all (· == .lineEnd)
    | none => false

/-- Whether a text can be the parameters of an action: a name that may be followed by a literal in
round brackets, or a literal. -/
def areParameters (cs : List Char) : Bool :=
  let cs := trimBy isBlank cs
  match cs.dropWhile fun c => isWordChar c || c == '.' with
  | [] => true
  | rest =>
    if rest.head? == some '(' && rest.getLast? == some ')' && !rest.contains '\n' then
      isLiteral rest
    else isLiteral cs

end Conventions.Markup
