import Mathlib.Data.List.Basic
import Conventions.Proofs.Analysis.Scope
import Conventions.Proofs.Findings.Field
import Conventions.Proofs.Heuristics.Secret

/-!
# The vocabulary of findings

Most fields of findings speak a closed vocabulary. Beyond it there are the sources of
configuration, which are named after files, and two kinds of label that name the file
they come from: secrets and repeated literals. What a file contributes keeps to this
vocabulary, both the findings of the first rules and those of its analysis.
-/
namespace Conventions

/-- A label that the file at a path may add to a list. -/
def LabelField.Allows (path : String) : LabelField → String → Prop
  | .injectionPatterns, x => x = Analysis.Go.constructorInjectionLabel
  | .globalState, _ => False
  | .configSources, _ => True
  | .hardcodedSecrets, x => x = Secret.label path
  | .failurePatterns, x => x ∈ Analysis.failureVocabulary
  | .designPatterns, x => x ∈ Analysis.patternVocabulary
  | .frameworks, x => Technology.Known ⟨.framework, x⟩
  | .libraries, x => Technology.Known ⟨.library, x⟩
  | .databases, x => Technology.Known ⟨.database, x⟩
  | .buildTools, _ => False
  | .duplicatedBlocks, x => ∃ block, Repetition.Describes block ∧ x = locatedBlock path block
  | .layers, x => x ∈ ["Domain", "UseCase", "Repository", "Delivery/Handler", "Controller",
      "Model", "View"]
  | .modules, _ => False

/-- The texts that a field may be set to. -/
def TextField.vocabulary : TextField → List String
  | .testLocation => [Testing.separateDirectory, Testing.inProject]
  | .mocking => Analysis.mockingVocabulary ++ ["jest mocks", "unittest.mock"]
  | .namingPattern => ["test_*", "*_test", "*.spec.*", "*.test.*", "test_* or *_test"]
  | .assertions => Analysis.assertionVocabulary
  | .typeSafety => [Configuration.structuredTypeSafety]
  | .architecturePattern => ["Clean Architecture", "MVC", Architecture.standardLayout]
  | .commentStyle => []
  | .secretHandling => []
  | .inputSanitization => []
  | .memorySafety => []
  | .concurrencySafety => []
  | .loggingConsistency => []

/-- The text is not set, or is one that the field may be set to. -/
def TextField.Allows (field : TextField) (text : String) : Prop :=
  text = "" ∨ text ∈ field.vocabulary

/-- A contribution that keeps to the vocabulary. -/
structure Contribution.Conforms (c : Contribution) : Prop where
  labels : ∀ field : LabelField, ∀ x ∈ c.labels field, field.Allows c.path x
  texts : ∀ field : TextField, field.Allows (c.findings.text field)
  interfacePrefix : c.findings.naming.interfacePrefix = none ∨
    c.findings.naming.interfacePrefix = some "I"
  abstractionLevel : c.findings.injection.abstractionLevel = 0.0
  layered : c.findings.architecture.layers ≠ [] → c.findings.architecture.pattern ≠ ""

theorem Architecture.ofDirectories_conforms (directories : List String) :
    (∀ x ∈ (ofDirectories directories).layers, LabelField.layers.Allows "" x) ∧
      TextField.architecturePattern.Allows (ofDirectories directories).pattern ∧
      ((ofDirectories directories).layers ≠ [] → (ofDirectories directories).pattern ≠ "") ∧
      (ofDirectories directories).modules = [] := by
  have hgroups : ∀ g ∈ layerGroups, (∀ l ∈ g.layers, l.2 ∈ ["Domain", "UseCase", "Repository",
      "Delivery/Handler", "Controller", "Model", "View"]) ∧
      g.pattern ∈ TextField.architecturePattern.vocabulary ∧ g.pattern ≠ "" := by decide
  unfold ofDirectories
  split
  next g hg =>
    obtain ⟨hlayers, hpattern, hset⟩ := hgroups g (List.mem_of_find?_eq_some hg)
    refine ⟨fun x hx => ?_, Or.inr hpattern, fun _ => hset, rfl⟩
    rcases mem_addAll.mp hx with hx | hx
    · cases hx
    · obtain ⟨l, hl, rfl⟩ := List.mem_map.mp hx
      exact hlayers l (List.mem_of_mem_filter hl)
  next =>
    split
    · exact ⟨nofun, Or.inr (by decide), fun h => absurd rfl h, rfl⟩
    · exact ⟨nofun, Or.inl rfl, fun h => absurd rfl h, rfl⟩

theorem Testing.patternOf_mem (name : String) :
    patternOf name ∈ TextField.namingPattern.vocabulary := by
  unfold patternOf
  split_ifs <;> decide

theorem Testing.locationOf_mem (directories : List String) :
    locationOf directories ∈ TextField.testLocation.vocabulary := by
  unfold locationOf
  split <;> decide

theorem Testing.mockingOf_allowed (name : String) : TextField.mocking.Allows (mockingOf name) := by
  have hendings : ∀ m ∈ mockEndings, m.2 ∈ TextField.mocking.vocabulary := by decide
  unfold mockingOf
  split
  next m hm => exact Or.inr (hendings m (List.mem_of_find?_eq_some hm))
  next => exact Or.inl rfl

theorem Testing.ofPath_conforms (p : Path) :
    TextField.testLocation.Allows (ofPath p).location ∧
      TextField.namingPattern.Allows (ofPath p).namingPattern ∧
      TextField.mocking.Allows (ofPath p).mocking ∧ (ofPath p).assertions = "" := by
  unfold ofPath
  dsimp only
  refine ⟨?_, ?_, mockingOf_allowed _, rfl⟩
  · split
    · exact Or.inr (locationOf_mem _)
    · exact Or.inl rfl
  · split
    · exact Or.inr (patternOf_mem _)
    · exact Or.inl rfl

theorem Configuration.ofPath_conforms (p : Path) :
    TextField.typeSafety.Allows (ofPath p).typeSafety ∧ (ofPath p).secretHandling = "" := by
  unfold ofPath
  dsimp only
  split
  · refine ⟨?_, rfl⟩
    split
    · exact Or.inr (List.mem_singleton_self _)
    · exact Or.inl rfl
  · exact ⟨Or.inl rfl, rfl⟩

theorem Heuristics.securityOf_texts (p : Path) (source : String) :
    (securityOf p source).inputSanitization = "" ∧ (securityOf p source).memorySafety = "" ∧
      (securityOf p source).concurrencySafety = "" := by
  unfold securityOf
  split <;> exact ⟨rfl, rfl, rfl⟩

/-- Whatever path and text are, the first rules keep to the vocabulary. -/
theorem Heuristics.findings_conforms (p : Path) (source : String) :
    Contribution.Conforms { path := p.text, findings := Heuristics.findings p source } where
  labels := by
    intro field x hx
    cases field with
    | configSources => trivial
    | hardcodedSecrets => exact (mem_securityOf.mp hx).2
    | layers => exact (Architecture.ofDirectories_conforms p.directories).1 x hx
    | injectionPatterns => cases hx
    | globalState => cases hx
    | failurePatterns => cases hx
    | designPatterns => cases hx
    | frameworks => cases hx
    | libraries => cases hx
    | databases => cases hx
    | buildTools => cases hx
    | duplicatedBlocks => cases hx
    | modules =>
      have hnone := (Architecture.ofDirectories_conforms p.directories).2.2.2
      exact absurd hnone (List.ne_nil_of_mem hx)
  texts := by
    intro field
    cases field with
    | testLocation => exact (Testing.ofPath_conforms p).1
    | namingPattern => exact (Testing.ofPath_conforms p).2.1
    | mocking => exact (Testing.ofPath_conforms p).2.2.1
    | assertions => exact Or.inl (Testing.ofPath_conforms p).2.2.2
    | typeSafety => exact (Configuration.ofPath_conforms p).1
    | secretHandling => exact Or.inl (Configuration.ofPath_conforms p).2
    | architecturePattern => exact (Architecture.ofDirectories_conforms p.directories).2.1
    | commentStyle => exact Or.inl rfl
    | inputSanitization => exact Or.inl (securityOf_texts p source).1
    | memorySafety => exact Or.inl (securityOf_texts p source).2.1
    | concurrencySafety => exact Or.inl (securityOf_texts p source).2.2
    | loggingConsistency => exact Or.inl rfl
  interfacePrefix := Or.inl rfl
  abstractionLevel := rfl
  layered := (Architecture.ofDirectories_conforms p.directories).2.2.1

/-- Findings in which an analysis wrote only what is its own keep to the vocabulary. -/
theorem Analysis.InScope.conforms {f : Findings} (h : InScope f) (path : String)
    (language : Option String) : Contribution.Conforms ⟨path, f, language⟩ where
  labels := by
    intro field x hx
    cases field with
    | injectionPatterns => exact h.injectionPatterns x hx
    | globalState => exact absurd h.globalState (List.ne_nil_of_mem hx)
    | configSources => trivial
    | hardcodedSecrets =>
      exact absurd (congrArg Security.hardcodedSecrets h.security) (List.ne_nil_of_mem hx)
    | failurePatterns => exact h.failurePatterns x hx
    | designPatterns => exact h.designPatterns x hx
    | frameworks => exact h.technologies .framework x hx
    | libraries => exact h.technologies .library x hx
    | databases => exact h.technologies .database x hx
    | buildTools => exact absurd h.buildTools (List.ne_nil_of_mem hx)
    | duplicatedBlocks =>
      obtain ⟨block, hblock, rfl⟩ := List.mem_map.mp hx
      exact ⟨block, h.blocks block hblock, rfl⟩
    | layers =>
      exact absurd (congrArg Architecture.layers h.architecture) (List.ne_nil_of_mem hx)
    | modules =>
      exact absurd (congrArg Architecture.modules h.architecture) (List.ne_nil_of_mem hx)
  texts := by
    intro field
    cases field with
    | commentStyle => exact Or.inl h.commentStyle
    | testLocation => exact Or.inl h.location
    | mocking => exact h.mocking.imp id (List.mem_append_left _)
    | namingPattern => exact Or.inl h.namingPattern
    | assertions => exact h.assertions
    | typeSafety => exact Or.inl (congrArg Configuration.typeSafety h.configuration)
    | secretHandling => exact Or.inl (congrArg Configuration.secretHandling h.configuration)
    | inputSanitization => exact Or.inl (congrArg Security.inputSanitization h.security)
    | memorySafety => exact Or.inl (congrArg Security.memorySafety h.security)
    | concurrencySafety => exact Or.inl (congrArg Security.concurrencySafety h.security)
    | loggingConsistency => exact Or.inl h.loggingConsistency
    | architecturePattern => exact Or.inl (congrArg Architecture.pattern h.architecture)
  interfacePrefix := h.interfacePrefix
  abstractionLevel := h.abstractionLevel
  layered := fun hlayers => absurd (congrArg Architecture.layers h.architecture) hlayers

end Conventions
