import Conventions.Proofs.Findings.Pooled

/-!
# Fields by kind

The fields of findings are label lists, texts, casings, scores and the prefix of
interface names. Fields of one kind are merged alike, so a statement about a kind is a
statement about each of its fields.
-/
namespace Conventions

inductive LabelField where
  | injectionPatterns
  | globalState
  | configSources
  | hardcodedSecrets
  | failurePatterns
  | designPatterns
  | frameworks
  | libraries
  | databases
  | buildTools
  | duplicatedBlocks
  | layers
  | modules
  deriving DecidableEq, Repr

inductive TextField where
  | commentStyle
  | testLocation
  | mocking
  | namingPattern
  | assertions
  | typeSafety
  | secretHandling
  | inputSanitization
  | memorySafety
  | concurrencySafety
  | loggingConsistency
  | architecturePattern
  deriving DecidableEq, Repr

inductive CasingField where
  | variableNames
  | functionNames
  | typeNames
  | fileNames
  deriving DecidableEq, Repr

namespace Findings

def labels (f : Findings) : LabelField → List String
  | .injectionPatterns => f.injection.patterns
  | .globalState => f.injection.globalState
  | .configSources => f.configuration.sources
  | .hardcodedSecrets => f.security.hardcodedSecrets
  | .failurePatterns => f.errorHandling.failurePatterns
  | .designPatterns => f.designPatterns
  | .frameworks => f.techStack.frameworks
  | .libraries => f.techStack.libraries
  | .databases => f.techStack.databases
  | .buildTools => f.techStack.buildTools
  | .duplicatedBlocks => f.duplication.blocks
  | .layers => f.architecture.layers
  | .modules => f.architecture.modules

def text (f : Findings) : TextField → String
  | .commentStyle => f.naming.commentStyle
  | .testLocation => f.testing.location
  | .mocking => f.testing.mocking
  | .namingPattern => f.testing.namingPattern
  | .assertions => f.testing.assertions
  | .typeSafety => f.configuration.typeSafety
  | .secretHandling => f.configuration.secretHandling
  | .inputSanitization => f.security.inputSanitization
  | .memorySafety => f.security.memorySafety
  | .concurrencySafety => f.security.concurrencySafety
  | .loggingConsistency => f.errorHandling.loggingConsistency
  | .architecturePattern => f.architecture.pattern

def casing (f : Findings) : CasingField → Option Casing
  | .variableNames => f.naming.variableNames
  | .functionNames => f.naming.functionNames
  | .typeNames => f.naming.typeNames
  | .fileNames => f.naming.fileNames

end Findings

/-- The labels as they reach the project: those of repeated literals name the file. -/
def Contribution.labels (c : Contribution) : LabelField → List String
  | .duplicatedBlocks => c.findings.duplication.blocks.map (locatedBlock c.path)
  | field => c.findings.labels field

/-- Findings have what a contribution brings: every label, and a value wherever it sets one. -/
structure Contribution.Within (c : Contribution) (f : Findings) : Prop where
  labels : ∀ field, c.labels field ⊆ f.labels field
  texts : ∀ field, c.findings.text field ≠ "" → f.text field ≠ ""
  interfacePrefix : ∀ s, c.findings.naming.interfacePrefix = some s → s ≠ "" →
    f.naming.interfacePrefix.isSome
  casings : ∀ field, c.findings.casing field ≠ none → f.casing field ≠ none

namespace Findings

variable (cs : List Contribution)

theorem labels_pooled (field : LabelField) :
    (pooled cs).labels field = (cs.flatMap fun c => c.labels field).eraseDups := by
  cases field <;> rfl

theorem text_pooled (field : TextField) :
    (pooled cs).text field = firstText (cs.map fun c => c.findings.text field) := by
  cases field <;> rfl

theorem casing_pooled (field : CasingField) :
    (pooled cs).casing field = firstCasing (cs.map fun c => c.findings.casing field) := by
  cases field <;> rfl

theorem nodup_labels_pooled (field : LabelField) : ((pooled cs).labels field).Nodup := by
  rw [labels_pooled]
  exact nodup_eraseDups _

/-- A label is there iff some contribution brings it. -/
theorem mem_labels_pooled {field : LabelField} {x : String} :
    x ∈ (pooled cs).labels field ↔ ∃ c ∈ cs, x ∈ c.labels field := by
  rw [labels_pooled, List.mem_eraseDups, List.mem_flatMap]

/-- A text is set iff some contribution sets it. -/
theorem text_pooled_ne {field : TextField} :
    (pooled cs).text field ≠ "" ↔ ∃ c ∈ cs, c.findings.text field ≠ "" := by
  rw [text_pooled, firstText_ne]
  simp only [List.mem_map, exists_exists_and_eq_and]

/-- The text that is set is that of some contribution. -/
theorem text_pooled_mem {field : TextField} (h : (pooled cs).text field ≠ "") :
    ∃ c ∈ cs, c.findings.text field = (pooled cs).text field := by
  rw [text_pooled] at h ⊢
  exact List.mem_map.mp (firstText_mem h)

theorem interfacePrefix_pooled_isSome :
    (pooled cs).naming.interfacePrefix.isSome ↔
      ∃ c ∈ cs, ∃ s, c.findings.naming.interfacePrefix = some s ∧ s ≠ "" := by
  refine firstOptional_isSome.trans ?_
  simp only [List.mem_map, exists_exists_and_eq_and]

theorem interfacePrefix_pooled_mem {s : String}
    (h : (pooled cs).naming.interfacePrefix = some s) :
    s ≠ "" ∧ ∃ c ∈ cs, c.findings.naming.interfacePrefix = some s := by
  obtain ⟨hm, hs⟩ := mem_of_firstOptional h
  exact ⟨hs, List.mem_map.mp hm⟩

/-- Whether a casing is set, and known, is decided by the contributions together. -/
theorem casing_pooled_isKnown (field : CasingField) :
    ((pooled cs).casing field).map Casing.isKnown =
      if ∃ c ∈ cs, (c.findings.casing field).any Casing.isKnown then some true
      else if ∃ c ∈ cs, c.findings.casing field = some .unknown then some false
      else none := by
  rw [casing_pooled, firstCasing_isKnown]
  simp only [List.mem_map, exists_exists_and_eq_and]

/-- The casing that is set is that of some contribution. -/
theorem casing_pooled_mem {field : CasingField} {casing : Casing}
    (h : (pooled cs).casing field = some casing) :
    ∃ c ∈ cs, c.findings.casing field = some casing := by
  rw [casing_pooled] at h
  exact List.mem_map.mp (firstCasing_mem h)

theorem within_pooled {cs : List Contribution} {c : Contribution} (h : c ∈ cs) :
    c.Within (pooled cs) where
  labels := fun _ _ hx => (mem_labels_pooled cs).mpr ⟨c, h, hx⟩
  texts := fun _ ht => (text_pooled_ne cs).mpr ⟨c, h, ht⟩
  interfacePrefix := fun s hs hne => (interfacePrefix_pooled_isSome cs).mpr ⟨c, h, s, hs, hne⟩
  casings := by
    intro field hc hnone
    have hk := casing_pooled_isKnown cs field
    rw [hnone, Option.map_none] at hk
    obtain ⟨casing, hcasing⟩ := Option.ne_none_iff_exists'.mp hc
    by_cases hu : casing = .unknown
    · have he : ∃ c ∈ cs, c.findings.casing field = some .unknown := ⟨c, h, hu ▸ hcasing⟩
      rw [if_pos he] at hk
      split at hk <;> cases hk
    · have he : ∃ c ∈ cs, (c.findings.casing field).any Casing.isKnown :=
        ⟨c, h, by simp [hcasing, Casing.isKnown, hu]⟩
      rw [if_pos he] at hk
      cases hk

end Findings

end Conventions
