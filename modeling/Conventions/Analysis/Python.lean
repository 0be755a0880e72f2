import Conventions.Analysis.Basic
import Conventions.Technology.Signatures

/-!
# Analysis of Python

Naming, technologies and repeated literals. Relative imports name no package and
are not queried.
-/

namespace Conventions.Analysis.Python

open Conventions.Syntax

def namingQuery : Query :=
  [declaredName "function_definition" "name" "identifier" "function",
    declaredName "class_definition" "name" "identifier" "type",
    declaredName "assignment" "left" "identifier" "variable"]

def importQuery : Query :=
  [rule (shape "import_statement" [field "name" (leaf "dotted_name" "import.module")]),
    rule (shape "import_statement"
      [field "name" (shape "aliased_import" [field "name" (leaf "dotted_name" "import.module")])]),
    rule (shape "import_from_statement"
      [field "module_name" (leaf "dotted_name" "import.module")])]

def stringQuery : Query := [rule (leaf "string" "string")]

def queries : List (String × Query) :=
  [("naming", namingQuery), ("import", importQuery), ("string", stringQuery)]

def imports (doc : Document) : List String :=
  capturedTexts doc importQuery "import.module"

def technologies (module : String) : List (String × Technology) :=
  Technology.matchPackage (Technology.rootModule module) Technology.pythonSignatures

def passes : List Pass :=
  [namingPass namingQuery, technologyPass imports technologies, repetitionPass stringQuery]

end Conventions.Analysis.Python
