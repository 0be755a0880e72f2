import Mathlib.Data.List.Basic
import Conventions.Analysis.Analyzer

/-!
# What an analysis writes

All passes of all languages write into one record. Each keeps to its own section and, in
it, to labels that are known beforehand: nothing that a source contains gets into the
findings as it stands, except as the content of a repeated literal. The sections of the
first rules, and the fields that no rule computes, stay as they are.

This is shown for one pass after another, from findings of which it already holds, and so
it holds of every list of these passes on every tree.
-/
namespace Conventions

theorem forall_mem_addUnique {P : String → Prop} {items : List String} {item : String}
    (hitems : ∀ x ∈ items, P x) (hitem : P item) : ∀ x ∈ addUnique items item, P x := by
  intro x hx
  rcases mem_addUnique.mp hx with hold | rfl
  · exact hitems x hold
  · exact hitem

/-- The names of one category. -/
def TechStack.names (s : TechStack) : Category → List String
  | .framework => s.frameworks
  | .library => s.libraries
  | .database => s.databases

/-- The signatures of all languages. -/
def Technology.signatures : List (String × Technology) :=
  goSignatures ++ pythonSignatures ++ scriptSignatures ++ rustSignatures

/-- Some signature stands for the technology. -/
def Technology.Known (t : Technology) : Prop :=
  ∃ entry ∈ signatures, entry.2 = t

/-- Describes a content of which a file has at least two copies. -/
def Repetition.Describes (block : String) : Prop :=
  ∃ content count, 2 ≤ count ∧ block = Repetition.block content count

namespace Analysis

open Conventions.Syntax

def failureVocabulary : List String :=
  [Go.nilCheckLabel, Go.panicLabel, Rust.monadicLabel "Result", Rust.monadicLabel "Option",
    Rust.panicLabel]

def patternVocabulary : List String :=
  [Go.factoryLabel, Go.singletonLabel, Go.strategyLabel]

def mockingVocabulary : List String :=
  ["gomock", "testify/mock", "mockery"]

def assertionVocabulary : List String :=
  ["testify/assert", "testify/require", "gomega", "is"]

/-- Findings in which an analysis wrote nothing but what is its own. -/
structure InScope (f : Findings) : Prop where
  commentStyle : f.naming.commentStyle = ""
  interfacePrefix : f.naming.interfacePrefix = none ∨ f.naming.interfacePrefix = some "I"
  injectionPatterns : ∀ x ∈ f.injection.patterns, x = Go.constructorInjectionLabel
  abstractionLevel : f.injection.abstractionLevel = 0.0
  globalState : f.injection.globalState = []
  location : f.testing.location = ""
  namingPattern : f.testing.namingPattern = ""
  mocking : f.testing.mocking = "" ∨ f.testing.mocking ∈ mockingVocabulary
  assertions : f.testing.assertions = "" ∨ f.testing.assertions ∈ assertionVocabulary
  configuration : f.configuration = {}
  security : f.security = {}
  failurePatterns : ∀ x ∈ f.errorHandling.failurePatterns, x ∈ failureVocabulary
  loggingConsistency : f.errorHandling.loggingConsistency = ""
  designPatterns : ∀ x ∈ f.designPatterns, x ∈ patternVocabulary
  technologies : ∀ category, ∀ x ∈ f.techStack.names category, Technology.Known ⟨category, x⟩
  buildTools : f.techStack.buildTools = []
  blocks : ∀ x ∈ f.duplication.blocks, Repetition.Describes x
  architecture : f.architecture = {}

theorem inScope_empty : InScope {} where
  commentStyle := rfl
  interfacePrefix := Or.inl rfl
  injectionPatterns := nofun
  abstractionLevel := rfl
  globalState := rfl
  location := rfl
  namingPattern := rfl
  mocking := Or.inl rfl
  assertions := Or.inl rfl
  configuration := rfl
  security := rfl
  failurePatterns := nofun
  loggingConsistency := rfl
  designPatterns := nofun
  technologies := fun category => by cases category <;> nofun
  buildTools := rfl
  blocks := nofun
  architecture := rfl

/-- The pass stays in scope. -/
def KeepsScope (pass : Pass) : Prop :=
  ∀ doc f, InScope f → InScope (pass doc f)

theorem recordCasing_eq (n : Naming) (axis : String) (c : Casing) :
    (recordCasing n axis c).commentStyle = n.commentStyle ∧
      (recordCasing n axis c).interfacePrefix = n.interfacePrefix := by
  unfold recordCasing
  split_ifs <;> exact ⟨rfl, rfl⟩

theorem namingPass_keepsScope (query : Query) : KeepsScope (namingPass query) := by
  intro doc f h
  have hnaming : (namingPass query doc f).naming.commentStyle = f.naming.commentStyle ∧
      (namingPass query doc f).naming.interfacePrefix = f.naming.interfacePrefix := by
    refine List.foldlRecOn (motive := fun n : Naming => n.commentStyle = f.naming.commentStyle ∧
      n.interfacePrefix = f.naming.interfacePrefix) _ _ ⟨rfl, rfl⟩ fun n hn b _ => ?_
    have hb := recordCasing_eq n (Text.upTo '.' b.1) (Casing.classify (doc.text b.2))
    exact ⟨hb.1.trans hn.1, hb.2.trans hn.2⟩
  exact { h with
    commentStyle := hnaming.1.trans h.commentStyle
    interfacePrefix := hnaming.2 ▸ h.interfacePrefix }

theorem names_add (s : TechStack) (t : Technology) (category : Category) :
    (s.add t).names category =
      if category = t.category then addUnique (s.names category) t.name
      else s.names category := by
  obtain ⟨own, name⟩ := t
  cases own <;> cases category <;> rfl

theorem known_of_mem_add {s : TechStack} {t : Technology} (ht : t.Known)
    (hs : ∀ category, ∀ x ∈ s.names category, Technology.Known ⟨category, x⟩)
    (category : Category) : ∀ x ∈ (s.add t).names category, Technology.Known ⟨category, x⟩ := by
  rw [names_add]
  split
  next hc => exact forall_mem_addUnique (hs category) (hc ▸ ht)
  next => exact hs category

theorem buildTools_add (s : TechStack) (t : Technology) : (s.add t).buildTools = s.buildTools := by
  unfold TechStack.add
  split <;> rfl

theorem technologyPass_keepsScope {imports : Document → List String}
    {technologies : String → List (String × Technology)}
    (hknown : ∀ i, ∀ entry ∈ technologies i, entry.2.Known) :
    KeepsScope (technologyPass imports technologies) := by
  intro doc f h
  have hstack : (∀ category, ∀ x ∈ (technologyPass imports technologies doc f).techStack.names
      category, Technology.Known ⟨category, x⟩) ∧
      (technologyPass imports technologies doc f).techStack.buildTools = [] := by
    refine List.foldlRecOn (motive := fun s : TechStack => (∀ category, ∀ x ∈ s.names category,
      Technology.Known ⟨category, x⟩) ∧ s.buildTools = []) _ _ ⟨h.technologies, h.buildTools⟩
      fun s hs i _ => ?_
    refine List.foldlRecOn (motive := fun s : TechStack => (∀ category, ∀ x ∈ s.names category,
      Technology.Known ⟨category, x⟩) ∧ s.buildTools = []) _ _ hs fun s hs entry hentry => ?_
    exact ⟨known_of_mem_add (hknown i entry hentry) hs.1, (buildTools_add s entry.2).trans hs.2⟩
  exact { h with technologies := hstack.1, buildTools := hstack.2 }

theorem two_le_of_mem_repeats {literals : List String} {r : String × Nat}
    (h : r ∈ Repetition.repeats literals) : 2 ≤ r.2 := by
  have hr := (List.mem_filter.mp h).2
  exact of_decide_eq_true hr

theorem repetitionPass_keepsScope (query : Query) : KeepsScope (repetitionPass query) := by
  intro doc f h
  have hblocks : ∀ x ∈ (repetitionPass query doc f).duplication.blocks,
      Repetition.Describes x := by
    refine List.foldlRecOn (motive := fun d : Duplication => ∀ x ∈ d.blocks,
      Repetition.Describes x) _ _ h.blocks fun d hd r hr => ?_
    exact forall_mem_addUnique hd ⟨r.1, r.2, two_le_of_mem_repeats hr, rfl⟩
  exact { h with blocks := hblocks }

theorem Go.interfacePass_keepsScope : KeepsScope Go.interfacePass := by
  intro doc f h
  unfold Go.interfacePass
  split
  · exact { h with interfacePrefix := Or.inr rfl }
  · exact h

theorem Go.mem_addLabel {labels : List (String × String)} {vocabulary items : List String}
    (hlabels : ∀ l ∈ labels, l.2 ∈ vocabulary) (hitems : ∀ x ∈ items, x ∈ vocabulary)
    (capture : String) : ∀ x ∈ Go.addLabel labels items capture, x ∈ vocabulary := by
  unfold Go.addLabel
  split
  next l hl => exact forall_mem_addUnique hitems (hlabels l (List.mem_of_find?_eq_some hl))
  next => exact hitems

/-- The labels that captures add are those of the table. -/
theorem Go.mem_foldl_addLabel {labels : List (String × String)} {vocabulary items : List String}
    (hlabels : ∀ l ∈ labels, l.2 ∈ vocabulary) (hitems : ∀ x ∈ items, x ∈ vocabulary)
    (bindings : List Binding) :
    ∀ x ∈ bindings.foldl (fun items b => Go.addLabel labels items b.1) items,
      x ∈ vocabulary :=
  List.foldlRecOn (motive := fun items : List String => ∀ x ∈ items, x ∈ vocabulary) _ _
    hitems fun _ hi b _ => Go.mem_addLabel hlabels hi b.1

theorem Go.errorHandlingPass_keepsScope : KeepsScope Go.errorHandlingPass := by
  intro doc f h
  have hlabels : ∀ l ∈ Go.failureLabels, l.2 ∈ failureVocabulary := by decide
  exact { h with failurePatterns := Go.mem_foldl_addLabel hlabels h.failurePatterns _ }

theorem Go.injectionPass_keepsScope : KeepsScope Go.injectionPass := by
  intro doc f h
  unfold Go.injectionPass
  split
  · exact h
  · exact { h with injectionPatterns := forall_mem_addUnique h.injectionPatterns rfl }

theorem Go.designPatternPass_keepsScope : KeepsScope Go.designPatternPass := by
  intro doc f h
  have hlabels : ∀ l ∈ Go.patternLabels, l.2 ∈ patternVocabulary := by decide
  have hdeclared :=
    Go.mem_foldl_addLabel hlabels h.designPatterns (captured doc Go.constructorQuery)
  refine { h with designPatterns := ?_ }
  unfold Go.designPatternPass
  dsimp only
  split
  · exact hdeclared
  · exact forall_mem_addUnique hdeclared (by decide)

/-- A setting that imports settle is that of a table, or is still what it was. -/
theorem Go.settleLabel_mem {table : List (String × String)} {vocabulary : List String}
    (htable : ∀ entry ∈ table, entry.2 ∈ vocabulary) {current : String}
    (hcurrent : current = "" ∨ current ∈ vocabulary) (path : String) :
    Go.settleLabel table current path = "" ∨ Go.settleLabel table current path ∈ vocabulary := by
  refine List.foldlRecOn (motive := fun label : String => label = "" ∨ label ∈ vocabulary) _ _
    hcurrent fun label hl entry hentry => ?_
  split
  · exact Or.inr (htable entry hentry)
  · exact hl

theorem Go.foldl_settleLabel_mem {table : List (String × String)} {vocabulary : List String}
    (htable : ∀ entry ∈ table, entry.2 ∈ vocabulary) {current : String}
    (hcurrent : current = "" ∨ current ∈ vocabulary) (paths : List String) :
    paths.foldl (Go.settleLabel table) current = "" ∨
      paths.foldl (Go.settleLabel table) current ∈ vocabulary :=
  List.foldlRecOn (motive := fun label : String => label = "" ∨ label ∈ vocabulary) _ _
    hcurrent fun _ hl path _ => Go.settleLabel_mem htable hl path

theorem Go.testingPass_keepsScope : KeepsScope Go.testingPass := by
  intro doc f h
  have hmocking : ∀ entry ∈ Go.mockingLibraries, entry.2 ∈ mockingVocabulary := by decide
  have hassertions : ∀ entry ∈ Go.assertionLibraries, entry.2 ∈ assertionVocabulary := by decide
  have hpackages : ∀ entry ∈ Go.mockingPackages, entry.2 ∈ mockingVocabulary := by decide
  refine { h with
    assertions := Go.foldl_settleLabel_mem hassertions h.assertions (Go.imports doc)
    mocking := ?_ }
  unfold Go.testingPass
  dsimp only
  split
  · -- No import settles it, so calls of packages may.
    cases hcalled : (capturedTexts doc Go.packageCallQuery "call.package").findSome? fun package =>
        (Go.mockingPackages.find? fun m => m.1 == package).map (·.2) with
    | none => exact Or.inl rfl
    | some label =>
      obtain ⟨package, -, hlabel⟩ := List.exists_of_findSome?_eq_some hcalled
      obtain ⟨entry, hentry, rfl⟩ := Option.map_eq_some_iff.mp hlabel
      exact Or.inr (hpackages entry (List.mem_of_find?_eq_some hentry))
  · exact Go.foldl_settleLabel_mem hmocking h.mocking (Go.imports doc)

theorem Rust.errorHandlingPass_keepsScope : KeepsScope Rust.errorHandlingPass := by
  intro doc f h
  have hmonadic : ∀ type ∈ Rust.monadicTypes, Rust.monadicLabel type ∈ failureVocabulary := by
    decide
  have hpanic : Rust.panicLabel ∈ failureVocabulary := by decide
  refine { h with failurePatterns := ?_ }
  refine List.foldlRecOn (motive := fun items : List String => ∀ x ∈ items, x ∈ failureVocabulary)
    _ _ h.failurePatterns fun items hi b _ => ?_
  unfold Rust.addFailure
  split
  · split
    next htype => exact forall_mem_addUnique hi (hmonadic _ (List.contains_iff_mem.mp htype))
    next => exact hi
  · split
    · exact forall_mem_addUnique hi hpanic
    · exact hi

theorem matchSubstring_subset (text : String) (table : List (String × Technology)) :
    Technology.matchSubstring text table ⊆ table :=
  List.filter_sublist.subset

theorem matchPackage_subset (package : String) (table : List (String × Technology)) :
    Technology.matchPackage package table ⊆ table :=
  List.filter_sublist.subset

theorem technologiesOf_subset (l : Language) (i : String) :
    technologiesOf l i ⊆ Technology.signatures := by
  have hscripts : Script.technologies i ⊆ Technology.scriptSignatures := by
    unfold Script.technologies
    split
    · exact matchPackage_subset ..
    · exact List.nil_subset _
  intro entry h
  unfold Technology.signatures
  cases l with
  | go => simp [matchSubstring_subset _ _ h]
  | python => simp [matchPackage_subset _ _ h]
  | typeScript => simp [hscripts h]
  | javaScript => simp [hscripts h]
  | rust => simp [matchSubstring_subset _ _ h]

theorem keepsScope_of_mem_passesOf (l : Language) : ∀ pass ∈ passesOf l, KeepsScope pass := by
  have htechnology : ∀ l, KeepsScope (technologyPass (importsOf l) (technologiesOf l)) := fun l =>
    technologyPass_keepsScope fun i entry h => ⟨entry, technologiesOf_subset l i h, rfl⟩
  intro pass hpass
  cases l with
  | go =>
    simp only [passesOf, Go.passes, List.mem_cons, List.not_mem_nil, or_false] at hpass
    rcases hpass with rfl | rfl | rfl | rfl | rfl | rfl | rfl | rfl
    · exact namingPass_keepsScope _
    · exact Go.interfacePass_keepsScope
    · exact Go.errorHandlingPass_keepsScope
    · exact Go.injectionPass_keepsScope
    · exact Go.designPatternPass_keepsScope
    · exact Go.testingPass_keepsScope
    · exact htechnology .go
    · exact repetitionPass_keepsScope _
  | python =>
    simp only [passesOf, Python.passes, List.mem_cons, List.not_mem_nil, or_false] at hpass
    rcases hpass with rfl | rfl | rfl
    · exact namingPass_keepsScope _
    · exact htechnology .python
    · exact repetitionPass_keepsScope _
  | typeScript =>
    simp only [passesOf, Script.passes, List.mem_cons, List.not_mem_nil, or_false] at hpass
    rcases hpass with rfl | rfl
    · exact namingPass_keepsScope _
    · exact htechnology .typeScript
  | javaScript =>
    simp only [passesOf, Script.passes, List.mem_cons, List.not_mem_nil, or_false] at hpass
    rcases hpass with rfl | rfl
    · exact namingPass_keepsScope _
    · exact htechnology .javaScript
  | rust =>
    simp only [passesOf, Rust.passes, List.mem_cons, List.not_mem_nil, or_false] at hpass
    rcases hpass with rfl | rfl | rfl
    · exact namingPass_keepsScope _
    · exact htechnology .rust
    · exact Rust.errorHandlingPass_keepsScope

theorem inScope_runPasses {passes : List Pass} (h : ∀ pass ∈ passes, KeepsScope pass)
    (doc : Document) : InScope (runPasses passes doc) :=
  List.foldlRecOn (motive := InScope) _ _ inScope_empty fun f hf pass hpass =>
    h pass hpass doc f hf

/-- The findings of every parsed file are in scope. -/
theorem inScope_analyzeFile (p : Path) (l : Language) (doc : Document) :
    InScope (analyzeFile p l doc) :=
  { inScope_runPasses (keepsScope_of_mem_passesOf l) doc with }

end Analysis

end Conventions
