import Conventions.Analysis.Basic
import Conventions.Technology.Signatures

/-!
# Analysis of Rust

Naming, technologies and error handling. A return type counts as monadic by its
last name, bare or at the end of a path.
-/

namespace Conventions.Analysis.Rust

open Conventions.Syntax

def namingQuery : Query :=
  [declaredName "function_item" "name" "identifier" "function",
    declaredName "struct_item" "name" "type_identifier" "type",
    declaredName "enum_item" "name" "type_identifier" "type",
    declaredName "let_declaration" "pattern" "identifier" "variable"]

def importQuery : Query :=
  [rule (shape "use_declaration" [field "argument" (.node .anyNamed (some "import.path") [])])]

/-- A generic return type of a function, bare and at the end of a path. -/
def returnTypeRules (kind : String) : List Rule :=
  [rule (shape kind [field "return_type"
      (shape "generic_type" [field "type" (leaf "type_identifier" "return.type")])]),
    rule (shape kind [field "return_type"
      (shape "generic_type" [field "type"
        (shape "scoped_type_identifier" [field "name" (leaf "type_identifier" "return.type")])])])]

def errorHandlingQuery : Query :=
  returnTypeRules "function_item" ++ returnTypeRules "function_signature_item" ++
    [{ pattern := captureShape "macro_invocation" "panic"
          [field "macro" (leaf "identifier" "panic.name")]
       conditions := [textIs "panic.name" "panic"] }]

def queries : List (String × Query) :=
  [("naming", namingQuery), ("import", importQuery), ("error_handling", errorHandlingQuery)]

def monadicTypes : List String := ["Result", "Option"]

def monadicLabel (type : String) : String := "Monadic (" ++ type ++ ")"

def panicLabel : String := "panic!()"

/-- The failure patterns after one capture. -/
def addFailure (doc : Document) (items : List String) (b : Binding) : List String :=
  if b.1 = "return.type" then
    if monadicTypes.contains (doc.text b.2) then addUnique items (monadicLabel (doc.text b.2))
    else items
  else if b.1 = "panic" then addUnique items panicLabel
  else items

def errorHandlingPass : Pass := fun doc f =>
  { f with
    errorHandling := { f.errorHandling with
      failurePatterns := (captured doc errorHandlingQuery).foldl (addFailure doc)
        f.errorHandling.failurePatterns } }

def imports (doc : Document) : List String :=
  capturedTexts doc importQuery "import.path"

def technologies (path : String) : List (String × Technology) :=
  Technology.matchSubstring path Technology.rustSignatures

def passes : List Pass :=
  [namingPass namingQuery, technologyPass imports technologies, errorHandlingPass]

end Conventions.Analysis.Rust
