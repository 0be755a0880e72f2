import Conventions.Findings.Basic
import Conventions.Json.Value
import Conventions.Number.Shortest

/-!
# Findings as a document

The published form of findings and profiles: field names and their order are
fixed, a casing is written by its name and one that is not set as null.
-/

namespace Conventions

open Json (ofTexts)

def Casing.document : Option Casing → Json
  | none => .null
  | some c => .str c.name

def optionalText : Option String → Json
  | none => .null
  | some s => .str s

/-- A score, with the words of JSON documents for infinity and not-a-number. -/
def scoreDocument (x : Float) : Json :=
  .real ((Number.view x).text Number.jsonWords)

def Naming.document (n : Naming) : Json :=
  .obj
    [("variable_casing", Casing.document n.variableNames),
      ("function_casing", Casing.document n.functionNames),
      ("class_struct_naming", Casing.document n.typeNames),
      ("file_naming", Casing.document n.fileNames),
      ("interface_prefix", optionalText n.interfacePrefix),
      ("comment_style", .str n.commentStyle)]

def Injection.document (i : Injection) : Json :=
  .obj
    [("injection_patterns", ofTexts i.patterns),
      ("abstraction_level", scoreDocument i.abstractionLevel),
      ("global_state_usage", ofTexts i.globalState)]

def Testing.document (t : Testing) : Json :=
  .obj
    [("test_location", .str t.location),
      ("mocking_strategy", .str t.mocking),
      ("naming_pattern", .str t.namingPattern),
      ("assertion_style", .str t.assertions)]

def Configuration.document (c : Configuration) : Json :=
  .obj
    [("config_sources", ofTexts c.sources),
      ("type_safety", .str c.typeSafety),
      ("secret_handling", .str c.secretHandling)]

def Security.document (s : Security) : Json :=
  .obj
    [("hardcoded_secrets", ofTexts s.hardcodedSecrets),
      ("input_sanitization", .str s.inputSanitization),
      ("memory_safety", .str s.memorySafety),
      ("concurrency_safety", .str s.concurrencySafety)]

def ErrorHandling.document (e : ErrorHandling) : Json :=
  .obj
    [("failure_patterns", ofTexts e.failurePatterns),
      ("logging_consistency", .str e.loggingConsistency)]

def TechStack.document (t : TechStack) : Json :=
  .obj
    [("frameworks", ofTexts t.frameworks),
      ("libraries", ofTexts t.libraries),
      ("databases", ofTexts t.databases),
      ("build_tools", ofTexts t.buildTools)]

def Duplication.document (d : Duplication) : Json :=
  .obj
    [("duplicated_blocks", ofTexts d.blocks),
      ("duplication_score", scoreDocument d.score)]

def Architecture.document (a : Architecture) : Json :=
  .obj
    [("pattern", .str a.pattern),
      ("layers", ofTexts a.layers),
      ("modules", ofTexts a.modules)]

/-- The ten sections of findings. -/
def Findings.sections (f : Findings) : List (String × Json) :=
  [("naming", f.naming.document),
    ("di", f.injection.document),
    ("testing", f.testing.document),
    ("config", f.configuration.document),
    ("security", f.security.document),
    ("error_handling", f.errorHandling.document),
    ("design_patterns", .obj [("patterns", ofTexts f.designPatterns)]),
    ("tech_stack", f.techStack.document),
    ("dry", f.duplication.document),
    ("architecture", f.architecture.document)]

def Findings.document (f : Findings) : Json :=
  .obj f.sections

def RunStats.document (s : RunStats) : Json :=
  .obj (Stat.all.map fun stat => (stat.name, .int (s.get stat)))

/-- The findings of a profile followed by its own members. -/
def Profile.document (p : Profile) : Json :=
  .obj
    (p.findings.sections ++
      [("language_counts", .obj (p.languageCounts.map fun entry => (entry.1, .int entry.2))),
        ("llm_summary", optionalText p.summary),
        ("stats", p.stats.document)])

end Conventions
