import Conventions.Analysis.Basic
import Conventions.Technology.Signatures

/-!
# Analysis of Go

Naming with interface prefixes, error handling, constructors and design patterns,
test libraries, technologies and repeated literals. Functions are declared only at
package level, so a function declaration is a candidate constructor wherever it
stands.
-/

namespace Conventions.Analysis.Go

open Conventions.Syntax

def namingQuery : Query :=
  [declaredName "function_declaration" "name" "identifier" "function",
    declaredName "method_declaration" "name" "field_identifier" "function",
    declaredName "type_spec" "name" "type_identifier" "type",
    declaredName "var_spec" "name" "identifier" "variable",
    rule (shape "short_var_declaration"
      [field "left" (shape "expression_list" [child (leaf "identifier" "variable.name")])])]

def interfaceQuery : Query :=
  [rule (captureShape "type_spec" "interface"
    [field "name" (leaf "type_identifier" "interface.name"),
      field "type" (shape "interface_type" [])])]

def errorHandlingQuery : Query :=
  [rule (captureShape "if_statement" "nil_check"
      [field "condition" (shape "binary_expression"
        [field "left" (leaf "identifier" "nil_check.name"),
          field "operator" (.node (.token "!=") none []),
          field "right" (shape "nil" [])])]),
    { pattern := captureShape "call_expression" "panic"
        [field "function" (leaf "identifier" "panic.name")]
      conditions := [textIs "panic.name" "panic"] }]

/-- A name of a constructor: New and a capital letter. -/
def isConstructorName (cs : List Char) : Bool :=
  "New".toList.isPrefixOf cs && (cs.drop 3).head?.any Char.isUpper

/-- A name of a getter for a single shared instance. -/
def isSingletonName (cs : List Char) : Bool :=
  ["GetInstance", "GetConfig", "GetDB"].any fun w => Text.occurs w.toList cs

def constructorQuery : Query :=
  [{ pattern := captureShape "function_declaration" "factory"
        [field "name" (leaf "identifier" "factory.name")]
     conditions := [⟨"factory.name", isConstructorName⟩] },
    { pattern := captureShape "function_declaration" "singleton"
        [field "name" (leaf "identifier" "singleton.name")]
      conditions := [⟨"singleton.name", isSingletonName⟩] }]

def importQuery : Query :=
  [rule (shape "import_spec" [field "path" (leaf "interpreted_string_literal" "import.path")])]

def packageCallQuery : Query :=
  [rule (captureShape "call_expression" "call"
    [field "function" (shape "selector_expression"
      [field "operand" (leaf "identifier" "call.package"),
        field "field" (leaf "field_identifier" "call.method")])])]

def stringQuery : Query :=
  [rule (leaf "interpreted_string_literal" "string"), rule (leaf "raw_string_literal" "string")]

def queries : List (String × Query) :=
  [("naming", namingQuery), ("interface", interfaceQuery), ("error_handling", errorHandlingQuery),
    ("constructor", constructorQuery), ("import", importQuery),
    ("package_call", packageCallQuery), ("string", stringQuery)]

def nilCheckLabel : String := "if err != nil"
def panicLabel : String := "panic()"
def constructorInjectionLabel : String := "Constructor Injection (NewXXX)"
def factoryLabel : String := "Factory Pattern (NewXXX)"
def singletonLabel : String := "Potential Singleton (GetInstance)"
def strategyLabel : String := "Strategy Pattern (via Interfaces)"

/-- Fragments of import paths and the mocking strategies they stand for. -/
def mockingLibraries : List (String × String) :=
  [("github.com/golang/mock", "gomock"), ("go.uber.org/mock", "gomock"),
    ("github.com/stretchr/testify/mock", "testify/mock"),
    ("github.com/vektra/mockery", "mockery")]

/-- Fragments of import paths and the assertion styles they stand for. -/
def assertionLibraries : List (String × String) :=
  [("github.com/stretchr/testify/assert", "testify/assert"),
    ("github.com/stretchr/testify/require", "testify/require"),
    ("github.com/onsi/gomega", "gomega"), ("github.com/matryer/is", "is")]

/-- Packages whose use in a call shows a mocking strategy. -/
def mockingPackages : List (String × String) := [("gomock", "gomock")]

/-- The paths of the interpreted imports. -/
def imports (doc : Document) : List String :=
  (capturedTexts doc importQuery "import.path").map Literal.unquote

def technologies (path : String) : List (String × Technology) :=
  Technology.matchSubstring path Technology.goSignatures

/-- A capital I followed by another capital. -/
def hasInterfacePrefix (cs : List Char) : Bool :=
  cs.head? == some 'I' && (cs.drop 1).head?.any Char.isUpper

def interfaceNames (doc : Document) : List String :=
  capturedTexts doc interfaceQuery "interface.name"

def interfacePass : Pass := fun doc f =>
  if f.naming.interfacePrefix.isNone &&
      (interfaceNames doc).any fun n => hasInterfacePrefix n.toList then
    { f with naming := { f.naming with interfacePrefix := some "I" } }
  else f

/-- The label that a capture adds, if any. -/
def addLabel (labels : List (String × String)) (items : List String) (capture : String) :
    List String :=
  match labels.find? fun l => l.1 == capture with
  | some l => addUnique items l.2
  | none => items

def failureLabels : List (String × String) := [("nil_check", nilCheckLabel), ("panic", panicLabel)]

def errorHandlingPass : Pass := fun doc f =>
  { f with
    errorHandling := { f.errorHandling with
      failurePatterns := (captured doc errorHandlingQuery).foldl
        (fun items b => addLabel failureLabels items b.1) f.errorHandling.failurePatterns } }

def injectionPass : Pass := fun doc f =>
  if (capturedTexts doc constructorQuery "factory.name").isEmpty then f
  else
    { f with
      injection := { f.injection with
        patterns := addUnique f.injection.patterns constructorInjectionLabel } }

def patternLabels : List (String × String) :=
  [("factory", factoryLabel), ("singleton", singletonLabel)]

def designPatternPass : Pass := fun doc f =>
  let declared := (captured doc constructorQuery).foldl
    (fun items b => addLabel patternLabels items b.1) f.designPatterns
  { f with
    designPatterns :=
      if (interfaceNames doc).isEmpty then declared else addUnique declared strategyLabel }

/-- The setting after one import: each fragment of the table that the import contains offers its
label, and the first label ever offered stays. -/
def settleLabel (table : List (String × String)) (current path : String) : String :=
  table.foldl
    (fun label entry => if Text.within entry.1 path && label == "" then entry.2 else label) current

def testingPass : Pass := fun doc f =>
  let paths := imports doc
  let mocking := paths.foldl (settleLabel mockingLibraries) f.testing.mocking
  let assertions := paths.foldl (settleLabel assertionLibraries) f.testing.assertions
  let called := (capturedTexts doc packageCallQuery "call.package").findSome? fun package =>
    (mockingPackages.find? fun m => m.1 == package).map (·.2)
  { f with
    testing := { f.testing with
      mocking := if mocking = "" then called.getD "" else mocking
      assertions := assertions } }

def passes : List Pass :=
  [namingPass namingQuery, interfacePass, errorHandlingPass, injectionPass, designPatternPass,
    testingPass, technologyPass imports technologies, repetitionPass stringQuery]

end Conventions.Analysis.Go
