import Conventions.Settings.Environment
import Conventions.Text.Blank
import Conventions.Text.Newline
import Conventions.Text.Utf8

/-!
# Files of environment variables

Such a file has a binding on each line: a name, an equals sign and a value. The
word `export` may stand in front, names may be in single quotes and values in
quotes of both kinds, where backslashes escape and lines may end. A comment starts
with a number sign. A name without an equals sign is bound to nothing. References to variables in
braces are replaced by their values.

What cannot be read is skipped to the end of the line on which reading failed. Bindings
never replace variables that are set already.
-/

namespace Conventions.Command.Variables

open Conventions.Text

/-- A name with its value, if it has one. -/
structure Binding where
  name : String
  value : Option (List Char)
  deriving DecidableEq, Repr

/-- The result of reading a part of a text: what was read and the rest, or the rest at which
reading failed. -/
abbrev Reading (α : Type) := Except (List Char) (α × List Char)

def isLineEnd (c : Char) : Bool := c == '\n'

/-- A blank within a line. -/
def isGap (c : Char) : Bool := isBlank c && !isLineEnd c

/-- The rest of a text after the end of its first line. -/
def nextLine (cs : List Char) : List Char :=
  (cs.dropWhile fun c => !isLineEnd c).drop 1

/-- The rest after an optional word `export`. -/
def dropExport (cs : List Char) : List Char :=
  match cs with
  | 'e' :: 'x' :: 'p' :: 'o' :: 'r' :: 't' :: c :: rest =>
    if isGap c then rest.dropWhile isGap else cs
  | _ => cs

/-- A quoted text after its opening quote, still escaped, and the rest after the closing one. A
quote after a backslash does not close the text, unless no other does: then the last such quote
closes it. `done` is what was read, the last character first, and `last` the reading up to the
last escaped quote. -/
def quotedPart? (quote : Char) (done : List Char) (last : Option (List Char × List Char)) :
    List Char → Option (List Char × List Char)
  | [] => last
  | '\\' :: c :: cs =>
    if c = quote then
      quotedPart? quote (c :: '\\' :: done) (some (('\\' :: done).reverse, cs)) cs
    else quotedPart? quote ('\\' :: done) last (c :: cs)
  | c :: cs =>
    if c = quote then some (done.reverse, cs) else quotedPart? quote (c :: done) last cs
termination_by cs => cs.length

/-- Escapes that stand for another character than the one after the backslash. -/
def namedEscapes : List (Char × Char) :=
  [('a', '\x07'), ('b', '\x08'), ('f', '\x0c'), ('n', '\n'), ('r', '\r'), ('t', '\t'),
    ('v', '\x0b')]

/-- The character that an escape stands for in a text in the given quote. -/
def unescaped? (quote c : Char) : Option Char :=
  if c = '\\' ∨ c = '\'' then some c
  else if quote = '"' then
    if c = '"' then some c else (namedEscapes.find? fun e => e.1 == c).map (·.2)
  else none

/-- A text with its escapes replaced. -/
def unescape (quote : Char) : List Char → List Char
  | '\\' :: c :: cs =>
    match unescaped? quote c with
    | some d => d :: unescape quote cs
    | none => '\\' :: unescape quote (c :: cs)
  | c :: cs => c :: unescape quote cs
  | [] => []
termination_by cs => cs.length

def isNameChar (c : Char) : Bool := c != '=' && c != '#' && !isBlank c

/-- The name at the start of a binding; there is none before a comment. -/
def readName (cs : List Char) : Reading (Option String) :=
  match cs with
  | '#' :: _ => .ok (none, cs)
  | '\'' :: rest =>
    match rest.takeWhile (· != '\''), rest.dropWhile (· != '\'') with
    | [], _ => .error cs
    | _, [] => .error cs
    | name, _ :: more => .ok (some (String.ofList name), more)
  | _ =>
    match cs.takeWhile isNameChar with
    | [] => .error cs
    | name => .ok (some (String.ofList name), cs.dropWhile isNameChar)

/-- A value without the comment that blanks separate from it. -/
def dropComment : List Char → List Char
  | [] => []
  | c :: cs =>
    if isBlank c && (cs.dropWhile isBlank).head? == some '#' then [] else c :: dropComment cs

/-- The value after an equals sign. -/
def readValue (cs : List Char) : Reading (List Char) :=
  let start := cs.dropWhile isGap
  let quoted (quote : Char) (body : List Char) : Reading (List Char) :=
    match quotedPart? quote [] none body with
    | some (text, rest) => .ok (unescape quote text, rest)
    | none => .error start
  match start with
  | '\'' :: body => quoted '\'' body
  | '"' :: body => quoted '"' body
  | _ =>
    let line := cs.takeWhile fun c => !isLineEnd c
    .ok (trimBy isBlank (dropComment line), cs.drop line.length)

/-- The rest after an optional comment and the end of a line. -/
def readLineEnd (cs : List Char) : Except (List Char) (List Char) :=
  match cs.dropWhile isGap with
  | [] => .ok []
  | '#' :: more => .ok (nextLine more)
  | c :: more => if isLineEnd c then .ok more else .error cs

/-- The value after a name, if there is an equals sign. -/
def readOptionalValue (cs : List Char) : Reading (Option (List Char)) :=
  match cs.dropWhile isGap with
  | '=' :: more =>
    match readValue more with
    | .ok (value, rest) => .ok (some value, rest)
    | .error at_ => .error at_
  | rest => .ok (none, rest)

/-- The binding on a line, if the line is no comment. -/
def readBinding (cs : List Char) : Reading (Option Binding) :=
  match readName (dropExport cs) with
  | .error at_ => .error at_
  | .ok (name, afterName) =>
    match readOptionalValue afterName with
    | .error at_ => .error at_
    | .ok (value, afterValue) =>
      (readLineEnd afterValue).map fun rest => (name.map fun n => ⟨n, value⟩, rest)

/-- The bindings of a text. -/
def readBindings : (fuel : Nat) → List Char → List Binding
  | 0, _ => []
  | fuel + 1, cs =>
    match cs.dropWhile isBlank with
    | [] => []
    | start =>
      match readBinding start with
      | .ok (some b, rest) => b :: readBindings fuel rest
      | .ok (none, rest) => readBindings fuel rest
      | .error rest => readBindings fuel (nextLine rest)

/-- A variable in braces: its name, the text that stands in for it if it is not set, and the rest. -/
def reference? (cs : List Char) : Option (String × String × List Char) :=
  match cs with
  | '$' :: '\x7b' :: body =>
    let name := body.takeWhile fun c => c != '\x7d' && c != ':'
    match body.drop name.length with
    | '\x7d' :: rest => some (String.ofList name, "", rest)
    | ':' :: '-' :: more =>
      let fallback := more.takeWhile (· != '\x7d')
      match more.drop fallback.length with
      | _ :: rest => some (String.ofList name, String.ofList fallback, rest)
      | [] => none
    | _ => none
  | _ => none

/-- Names that a file has bound so far, the latest first; a name may be bound to nothing. -/
abbrev Bound := List (String × Option String)

/-- The text for a reference. What was set before the file counts more than what the file binds; a
name that is bound to nothing has an empty text. -/
def lookup (given : Environment) (bound : Bound) (name fallback : String) : String :=
  match given.get? name with
  | some text => text
  | none =>
    match bound.find? fun b => b.1 == name with
    | some (_, value) => value.getD ""
    | none => fallback

/-- A value with its references replaced. -/
def expand (given : Environment) (bound : Bound) : (fuel : Nat) → List Char → List Char
  | 0, cs => cs
  | _ + 1, [] => []
  | fuel + 1, c :: cs =>
    match reference? (c :: cs) with
    | some (name, fallback, rest) =>
      (lookup given bound name fallback).toList ++ expand given bound fuel rest
    | none => c :: expand given bound fuel cs

/-- One more binding; it replaces an earlier one of the name. -/
def bind (given : Environment) (bound : Bound) (b : Binding) : Bound :=
  let value := b.value.map fun cs =>
    String.ofList (expand given bound (cs.length + 1) cs)
  (b.name, value) :: bound.filter fun other => other.1 != b.name

/-- Whether an environment can hold a variable. -/
def isSettable (name value : String) : Bool :=
  !name.toList.contains '=' && !name.toList.contains '\x00' && !value.toList.contains '\x00'

/-- The variables that a file adds to an environment. -/
def added (given : Environment) (text : List Char) : Environment :=
  ((readBindings (text.length + 1) text).foldl (bind given) []).filterMap fun b =>
    if (given.get? b.1).isSome then none else b.2.map fun value => (b.1, value)

/-- The text of a file without a mark of its encoding. -/
def textOf? (octets : List UInt8) : Option (List Char) :=
  (Utf8.decode? octets).map fun cs =>
    unifyNewlines (if cs.head? == some '\uFEFF' then cs.drop 1 else cs)

/-- The environment with the variables of a file added; `none` if the file is not encoded in UTF-8 or
binds what no environment can hold. -/
def load? (env : Environment) (octets : List UInt8) : Option Environment :=
  match textOf? octets with
  | none => none
  | some text =>
    let more := added env text
    if more.all fun v => isSettable v.1 v.2 then some (env ++ more) else none

end Conventions.Command.Variables
