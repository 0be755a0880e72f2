import Conventions.Findings.Basic
import Conventions.Text.Quoted
import Conventions.Text.Search

/-!
# Technologies

A technology belongs to one of three categories. It is recognised by a key, either
anywhere inside an import or as the package that an import names. A key that ends
in a slash names a whole scope of packages.
-/

namespace Conventions

inductive Category where
  | framework
  | library
  | database
  deriving DecidableEq, Repr

namespace Category

def name : Category → String
  | framework => "framework"
  | library => "library"
  | database => "database"

def all : List Category := [framework, library, database]

def ofName? (s : String) : Option Category :=
  all.find? fun c => c.name == s

/-- The message for a name that is no category. -/
def unknownMessage (s : String) : String :=
  "Unknown tech-stack category: " ++ Text.quoted s

end Category

/-- A technology by category and name. -/
structure Technology where
  category : Category
  name : String
  deriving DecidableEq, Repr

/-- The stack with a technology in the list of its category. -/
def TechStack.add (s : TechStack) (t : Technology) : TechStack :=
  match t.category with
  | .framework => { s with frameworks := addUnique s.frameworks t.name }
  | .library => { s with libraries := addUnique s.libraries t.name }
  | .database => { s with databases := addUnique s.databases t.name }

namespace Technology

/-- The entries of a table whose key occurs in an import. -/
def matchSubstring {α : Type} (text : String) (table : List (String × α)) : List (String × α) :=
  table.filter fun entry => Text.within entry.1 text

/-- Whether a key names a package. -/
def keyNames (key package : String) : Bool :=
  if Text.endsWith "/" key then Text.startsWith key package else package == key

/-- The entries of a table whose key names a package. -/
def matchPackage {α : Type} (package : String) (table : List (String × α)) : List (String × α) :=
  table.filter fun entry => keyNames entry.1 package

/-- The first component of a dotted module name. -/
def rootModule (module : String) : String :=
  Text.upTo '.' module

/-- The package part of a module specifier; a relative or absolute path has none. A scope is
part of the package name. -/
def scriptPackage? (specifier : String) : Option String :=
  if specifier == "" || Text.startsWith "." specifier || Text.startsWith "/" specifier then none
  else
    match Text.splitOn '/' specifier.toList with
    | scope :: package :: _ =>
      if Text.startsWith "@" specifier then some (String.ofList (scope ++ '/' :: package))
      else some (String.ofList scope)
    | [package] => some (String.ofList package)
    | [] => none

end Technology

end Conventions
