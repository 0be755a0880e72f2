import Conventions.Findings.Basic

/-!
# Merging findings

The findings of a file are folded into those of the project field by field. Label
lists are united, scores are added, and every other field keeps the first value
that was set. A casing that is known replaces an unknown one. The labels of
repeated literals name the file that they come from.
-/

namespace Conventions

/-- The first set text wins. -/
def mergeText (current incoming : String) : String :=
  if current = "" then incoming else current

/-- The first set text wins, where a text may also be absent. -/
def mergeOptional (current incoming : Option String) : Option String :=
  match incoming with
  | none => current
  | some "" => current
  | some new =>
    match current with
    | none => some new
    | some "" => some new
    | some old => some old

/-- The first casing wins, but the first known one replaces an unknown one. -/
def mergeCasing (current incoming : Option Casing) : Option Casing :=
  match current, incoming with
  | _, none => current
  | none, some new => some new
  | some old, some new => if old = .unknown ∧ new ≠ .unknown then some new else some old

def Naming.merge (a b : Naming) : Naming where
  variableNames := mergeCasing a.variableNames b.variableNames
  functionNames := mergeCasing a.functionNames b.functionNames
  typeNames := mergeCasing a.typeNames b.typeNames
  fileNames := mergeCasing a.fileNames b.fileNames
  interfacePrefix := mergeOptional a.interfacePrefix b.interfacePrefix
  commentStyle := mergeText a.commentStyle b.commentStyle

def Injection.merge (a b : Injection) : Injection where
  patterns := addAll a.patterns b.patterns
  abstractionLevel := a.abstractionLevel + b.abstractionLevel
  globalState := addAll a.globalState b.globalState

def Testing.merge (a b : Testing) : Testing where
  location := mergeText a.location b.location
  mocking := mergeText a.mocking b.mocking
  namingPattern := mergeText a.namingPattern b.namingPattern
  assertions := mergeText a.assertions b.assertions

def Configuration.merge (a b : Configuration) : Configuration where
  sources := addAll a.sources b.sources
  typeSafety := mergeText a.typeSafety b.typeSafety
  secretHandling := mergeText a.secretHandling b.secretHandling

def Security.merge (a b : Security) : Security where
  hardcodedSecrets := addAll a.hardcodedSecrets b.hardcodedSecrets
  inputSanitization := mergeText a.inputSanitization b.inputSanitization
  memorySafety := mergeText a.memorySafety b.memorySafety
  concurrencySafety := mergeText a.concurrencySafety b.concurrencySafety

def ErrorHandling.merge (a b : ErrorHandling) : ErrorHandling where
  failurePatterns := addAll a.failurePatterns b.failurePatterns
  loggingConsistency := mergeText a.loggingConsistency b.loggingConsistency

def TechStack.merge (a b : TechStack) : TechStack where
  frameworks := addAll a.frameworks b.frameworks
  libraries := addAll a.libraries b.libraries
  databases := addAll a.databases b.databases
  buildTools := addAll a.buildTools b.buildTools

/-- A repeated literal with the file it stands in. -/
def locatedBlock (path block : String) : String :=
  path ++ ": " ++ block

def Duplication.merge (path : String) (a b : Duplication) : Duplication where
  blocks := addAll a.blocks (b.blocks.map (locatedBlock path))
  score := a.score + b.score

def Architecture.merge (a b : Architecture) : Architecture where
  pattern := mergeText a.pattern b.pattern
  layers := addAll a.layers b.layers
  modules := addAll a.modules b.modules

/-- The findings of a project after those of the file at `path`. -/
def Findings.merge (path : String) (a b : Findings) : Findings where
  naming := a.naming.merge b.naming
  injection := a.injection.merge b.injection
  testing := a.testing.merge b.testing
  configuration := a.configuration.merge b.configuration
  security := a.security.merge b.security
  errorHandling := a.errorHandling.merge b.errorHandling
  designPatterns := addAll a.designPatterns b.designPatterns
  techStack := a.techStack.merge b.techStack
  duplication := a.duplication.merge path b.duplication
  architecture := a.architecture.merge b.architecture

end Conventions
