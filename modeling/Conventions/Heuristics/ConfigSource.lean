import Conventions.Findings.Basic
import Conventions.Path

/-!
# Configuration sources

A file is a source of configuration by its extension, by a dotenv name or by the
word config in its name. Two file names stand for structured configuration: they
are labelled with the name itself, which also counts as type safety.
-/

namespace Conventions.Configuration

def extensions : List String := [".env", ".yaml", ".yml", ".json"]

def structuredNames : List String := ["properties.yaml", "application.yaml"]

def structuredTypeSafety : String := "Structured (Properties)"

/-- The plain dotenv file and its variants. -/
def isDotenv (lowerName : String) : Bool :=
  lowerName == ".env" || Text.startsWith ".env." lowerName

def isSource (lowerName lowerExtension : String) : Bool :=
  extensions.contains lowerExtension || isDotenv lowerName || Text.within "config" lowerName ||
    structuredNames.contains lowerName

/-- The label of a source. -/
def label (name lowerName lowerExtension : String) : String :=
  if structuredNames.contains lowerName then name
  else if isDotenv lowerName then "env"
  else if lowerExtension != "" then String.ofList (lowerExtension.toList.drop 1)
  else "config"

/-- What a path alone says about configuration. -/
def ofPath (p : Path) : Configuration :=
  let lowerName := Text.lower p.name
  if isSource lowerName p.lowerExtension then
    { sources := [label p.name lowerName p.lowerExtension]
      typeSafety := if structuredNames.contains lowerName then structuredTypeSafety else "" }
  else {}

end Conventions.Configuration
