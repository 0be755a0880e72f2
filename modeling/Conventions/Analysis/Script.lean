import Conventions.Analysis.Basic
import Conventions.Technology.Signatures

/-!
# Analysis of TypeScript and JavaScript

Naming and technologies, for both dialects of the grammar. Module specifiers come
from import statements and from calls of `require`.
-/

namespace Conventions.Analysis.Script

open Conventions.Syntax

def namingQuery : Query :=
  [declaredName "function_declaration" "name" "identifier" "function",
    declaredName "method_definition" "name" "property_identifier" "function",
    declaredName "class_declaration" "name" "type_identifier" "type",
    declaredName "variable_declarator" "name" "identifier" "variable"]

def importQuery : Query :=
  [rule (shape "import_statement" [field "source" (leaf "string" "import.source")]),
    { pattern := shape "call_expression"
        [field "function" (leaf "identifier" "require.function"),
          field "arguments" (shape "arguments" [child (leaf "string" "import.source")])]
      conditions := [textIs "require.function" "require"] }]

def queries : List (String × Query) :=
  [("naming", namingQuery), ("import", importQuery)]

def imports (doc : Document) : List String :=
  (capturedTexts doc importQuery "import.source").map Literal.unquote

def technologies (specifier : String) : List (String × Technology) :=
  match Technology.scriptPackage? specifier with
  | some package => Technology.matchPackage package Technology.scriptSignatures
  | none => []

def passes : List Pass :=
  [namingPass namingQuery, technologyPass imports technologies]

end Conventions.Analysis.Script
