import Conventions.Text.Lowercase
import Conventions.Text.Search

/-!
# Paths

A path is an optional root and a list of names. Empty names and single dots are
dropped when a path is read, so equal spellings of one path are equal. The last
name splits at its last dot into stem and extension, unless the dot is its first
or last character.
-/

namespace Conventions

/-- A path: its root, which is empty for a relative path, and its names. -/
structure Path where
  root : String
  names : List String
  deriving DecidableEq, Repr

namespace Path

/-- Exactly two leading slashes are a root of their own; any other number of them is one slash. -/
def rootOf (cs : List Char) : String :=
  match cs.takeWhile (· == '/') with
  | [] => ""
  | ['/', '/'] => "//"
  | _ => "/"

def ofString (s : String) : Path where
  root := rootOf s.toList
  names := ((Text.splitOn '/' s.toList).map String.ofList).filter fun n => n != "" && n != "."

def text (p : Path) : String :=
  if p.root = "" ∧ p.names = [] then "." else p.root ++ "/".intercalate p.names

/-- The root, if there is one, and the names. -/
def parts (p : Path) : List String :=
  if p.root = "" then p.names else p.root :: p.names

def name (p : Path) : String :=
  p.names.getLast?.getD ""

/-- The parts of the path above the last name. -/
def parentParts (p : Path) : List String :=
  { p with names := p.names.dropLast }.parts

/-- A name as stem and extension; the extension is empty or starts with the last dot. -/
def splitName (name : List Char) : List Char × List Char :=
  let extension := (name.reverse.takeWhile (· != '.')).reverse
  let stem := name.take (name.length - extension.length - 1)
  if extension = [] ∨ stem = [] then (name, []) else (stem, '.' :: extension)

def stem (p : Path) : String :=
  String.ofList (splitName p.name.toList).1

def extension (p : Path) : String :=
  String.ofList (splitName p.name.toList).2

/-- The extension in lower case, by which file kinds are told apart. -/
def lowerExtension (p : Path) : String :=
  Text.lower p.extension

/-- `q` read below `p`; a rooted `q` stands for itself. -/
def append (p q : Path) : Path :=
  if q.root = "" then { p with names := p.names ++ q.names } else q

/-- Paths in the order of their parts, compared by code points. -/
def le (p q : Path) : Bool :=
  !q.parts.lex p.parts fun a b => decide (a < b)

end Path

end Conventions
