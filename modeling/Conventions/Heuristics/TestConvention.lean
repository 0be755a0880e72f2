import Conventions.Heuristics.Layout

/-!
# Test conventions from file names

A file with test in its name, or marked as a spec, tells where tests live and how
they are named. Files of mocks tell the mocking strategy by their ending.
-/

namespace Conventions.Testing

def testDirectories : List String := ["test", "tests", "__tests__", "spec"]

def separateDirectory : String := "Separate test directory"

def inProject : String := "In-project/In-file"

/-- Endings of mock files and the strategy that each belongs to. -/
def mockEndings : List (String × String) :=
  [("_mock.go", "gomock"), (".mock.ts", "jest mocks"), (".mock.js", "jest mocks"),
    ("_mock.py", "unittest.mock")]

/-- How test files are named, from the lower-case name of one of them. -/
def patternOf (name : String) : String :=
  if Text.startsWith "test_" name then "test_*"
  else if Text.endsWith "_test" (Text.upTo '.' name) then "*_test"
  else if Text.within ".spec." name then "*.spec.*"
  else if Text.within ".test." name then "*.test.*"
  else "test_* or *_test"

def isTest (name : String) : Bool :=
  Text.within "test" name || Text.within ".spec." name

def locationOf (directories : List String) : String :=
  if directories.any testDirectories.contains then separateDirectory else inProject

def mockingOf (name : String) : String :=
  match mockEndings.find? fun m => Text.endsWith m.1 name with
  | some m => m.2
  | none => ""

/-- What a path alone says about tests. -/
def ofPath (p : Path) : Testing :=
  let name := Text.lower p.name
  { location := if isTest name then locationOf p.directories else ""
    namingPattern := if isTest name then patternOf name else ""
    mocking := mockingOf name }

end Conventions.Testing
