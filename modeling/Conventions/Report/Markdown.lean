import Conventions.Findings.Basic
import Conventions.Number.TwoPlaces
import Conventions.Report.Advice
import Conventions.Text.Blank

/-!
# The report in Markdown

The report lists every finding in nine numbered sections. A section may end with
advice for the dominant language. A summary in prose follows if there is one.
-/

namespace Conventions.Report

def notAvailable : String := "N/A"

/-- The name shown when no language dominates. -/
def unknownLanguage : String := "Unknown"

/-- A text without surrounding blanks. -/
def formatText (s : String) : String :=
  let text := Text.stripped s
  if text = "" then notAvailable else text

def formatOptional : Option String → String
  | none => notAvailable
  | some s => formatText s

/-- A casing by its name; an unknown one counts as not available. -/
def formatCasing : Option Casing → String
  | none => notAvailable
  | some .unknown => notAvailable
  | some c => c.name

def formatList : List String → String
  | [] => notAvailable
  | items => ", ".intercalate items

/-- Languages in the order of their ranks: higher counts first, equal counts by name. -/
def ranked (counts : List (String × Int)) : List (String × Int) :=
  counts.mergeSort Profile.outranks

def formatCounts (counts : List (String × Int)) : String :=
  formatList ((ranked counts).map fun entry => entry.1 ++ " (" ++ toString entry.2 ++ ")")

def bullet (label value : String) : String :=
  "- **" ++ label ++ "**: " ++ value

def item (text : String) : String := "  - " ++ text

/-- A title and the lines below it. -/
structure Section where
  title : String
  body : List String

def Section.heading (s : Section) : String := "## " ++ s.title

/-- The lines of a section: its heading, its body and an empty line. -/
def Section.lines (s : Section) : List String :=
  s.heading :: (s.body ++ [""])

def namingSection (language : String) (n : Naming) : Section :=
  let variableNames := formatCasing n.variableNames
  let functionNames := formatCasing n.functionNames
  let typeNames := formatCasing n.typeNames
  Section.mk "1. Naming & Syntax Conventions"
    ([bullet "Variable Casing" variableNames,
      bullet "Function Casing" functionNames,
      bullet "Class/Struct Naming" typeNames,
      bullet "File Naming" (formatCasing n.fileNames),
      bullet "Interface Prefix" (formatOptional n.interfacePrefix),
      bullet "Comment Style" (formatText n.commentStyle)] ++
      Advice.linesFor language .naming (" ".intercalate [variableNames, functionNames, typeNames]))

def injectionSection (language : String) (i : Injection) : Section :=
  let patterns := formatList i.patterns
  Section.mk "2. Dependency Injection (DI) & Coupling"
    ([bullet "Injection Pattern" patterns,
      bullet "Abstraction Level" (Number.twoPlaces i.abstractionLevel),
      bullet "Global State Dependency" (formatList i.globalState)] ++
      Advice.linesFor language .injection patterns)

def testingSection (language : String) (t : Testing) : Section :=
  Section.mk "3. Testing Culture & Style"
    ([bullet "Test Location" (formatText t.location),
      bullet "Mocking Strategy" (formatText t.mocking),
      bullet "Naming Pattern" (formatText t.namingPattern),
      bullet "Assertion Style" (formatText t.assertions)] ++
      Advice.linesFor language .testing t.mocking)

def configurationSection (language : String) (c : Configuration) : Section :=
  let sources := formatList c.sources
  Section.mk "4. Configuration & Environment Management"
    ([bullet "Config Source" sources,
      bullet "Type Safety" (formatText c.typeSafety),
      bullet "Secret Handling" (formatText c.secretHandling)] ++
      Advice.linesFor language .configuration sources)

def securitySection (language : String) (s : Security) : Section :=
  let secrets := if s.hardcodedSecrets.isEmpty then "None detected" else "Potential secrets found"
  Section.mk "5. Security & Safety Baseline"
    (bullet "Hardcoded Secrets" secrets :: s.hardcodedSecrets.map item ++
      [bullet "Input Sanitization" (formatText s.inputSanitization),
        bullet "Memory Safety" (formatText s.memorySafety),
        bullet "Concurrency Safety" (formatText s.concurrencySafety)] ++
      Advice.linesFor language .security secrets)

def errorHandlingSection (language : String) (e : ErrorHandling) : Section :=
  let patterns := formatList e.failurePatterns
  Section.mk "6. Error Handling Strategy"
    ([bullet "Failure Pattern" patterns,
      bullet "Logging Consistency" (formatText e.loggingConsistency)] ++
      Advice.linesFor language .errorHandling patterns)

def designPatternSection (language : String) (designPatterns : List String) : Section :=
  let patterns := formatList designPatterns
  Section.mk "7. Design Patterns"
    (bullet "Detected Patterns" patterns :: Advice.linesFor language .designPatterns patterns)

def technologySection (t : TechStack) (a : Architecture) (counts : List (String × Int)) :
    Section :=
  Section.mk "8. Tech Stack & Architecture"
    [bullet "Frameworks" (formatList t.frameworks),
      bullet "Libraries" (formatList t.libraries),
      bullet "Databases" (formatList t.databases),
      bullet "Build Tools" (formatList t.buildTools),
      bullet "Architecture Pattern" (formatText a.pattern),
      bullet "Layers" (formatList a.layers),
      bullet "Languages" (formatCounts counts)]

/-- The repeated literals, one line each below their heading. -/
def blockLines : List String → List String
  | [] => [bullet "Duplicated Blocks" notAvailable]
  | blocks => "- **Duplicated Blocks**:" :: blocks.map item

def duplicationSection (d : Duplication) : Section :=
  Section.mk "9. Code Duplication (DRY)"
    (bullet "Duplication Score" (Number.twoPlaces d.score) :: blockLines d.blocks)

/-- The summary in prose, unless it is empty. -/
def summarySection : Option String → List String
  | none => []
  | some "" => []
  | some s => (Section.mk "LLM Analysis Insights" [Text.strippedEnd s]).lines

def header (language : String) : List String :=
  ["# Project Guideline", "", "> **Dominant Language**: " ++ language, ""]

/-- The language that the report addresses. -/
def languageOf (p : Profile) : String :=
  match p.dominantLanguage with
  | none => unknownLanguage
  | some "" => unknownLanguage
  | some l => l

/-- The numbered sections, in order. -/
def sections (p : Profile) : List Section :=
  let language := languageOf p
  let f := p.findings
  [namingSection language f.naming, injectionSection language f.injection,
    testingSection language f.testing, configurationSection language f.configuration,
    securitySection language f.security, errorHandlingSection language f.errorHandling,
    designPatternSection language f.designPatterns,
    technologySection f.techStack f.architecture p.languageCounts,
    duplicationSection f.duplication]

/-- The lines of the report before the summary. -/
def findingLines (p : Profile) : List String :=
  header (languageOf p) ++ (sections p).flatMap Section.lines

/-- The report as one text. -/
def markdown (p : Profile) : String :=
  "\n".intercalate (findingLines p ++ summarySection p.summary)

end Conventions.Report
