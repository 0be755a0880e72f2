import Mathlib.Data.List.Basic
import Conventions.Proofs.Analysis.DesignPatterns
import Conventions.Proofs.Findings.Field
import Conventions.Proofs.Findings.Vocabulary
import Conventions.Proofs.Run.Discovered

/-!
# Findings that come together

Some findings are settled apart and belong together all the same.

A constructor in Go is reported twice, as an idiom of injection and as a design pattern, and
an interface whose name has the prefix is reported as a prefix and as a pattern. The reports
are made by passes of their own, from different captures, and merged under different
policies. But they go back to the same declarations, so the analysis of a file makes both
reports or neither. Nothing else of a run matters for this, so it is not a property of
finished runs only: it holds after every call, and of whatever closing the aggregate at
this moment would give.

The place of tests and the way they are named are two texts, of which each keeps the first
value that arrives. Every contribution sets both or neither and is merged as a whole, so the
first values are those of one file.
-/
namespace Conventions

open Conventions.Syntax

/-- The reports of constructors agree, and a prefix of interfaces comes with their pattern. -/
structure Findings.Coupled (f : Findings) : Prop where
  constructors : Analysis.Go.constructorInjectionLabel ∈ f.injection.patterns ↔
    Analysis.Go.factoryLabel ∈ f.designPatterns
  interfaces : f.naming.interfacePrefix = some "I" →
    Analysis.Go.strategyLabel ∈ f.designPatterns

namespace Analysis

/-- The prefix of interfaces is taken from one that is declared. -/
theorem Go.exists_interface {doc : Document} {s : String}
    (h : (analyze .go doc).naming.interfacePrefix = some s) : ∃ t, DeclaredBy doc .interface t := by
  have hpass : (FindingsPart.interfacePrefix, Go.interfacePass) ∈ partedPasses .go := by
    simp [partedPasses]
  have hpart : (analyze .go doc).naming.interfacePrefix =
      (Go.interfacePass doc {}).naming.interfacePrefix :=
    partOf_analyze hpass doc
  rw [hpart, Go.interfacePass] at h
  split at h
  next hletter =>
    obtain ⟨-, hany⟩ := (Bool.and_eq_true _ _).mp hletter
    obtain ⟨name, hname, -⟩ := List.any_eq_true.mp hany
    have hcaptured : ¬capturedTexts doc interfaceQuery "interface.name" = [] :=
      List.ne_nil_of_mem hname
    rw [capturedTexts_eq_nil, not_not] at hcaptured
    exact captures_interfaceName.mp hcaptured
  next => cases h

/-- Only the passes of Go report constructors and interfaces. -/
theorem untouched_of_ne_go {l : Language} (hl : l ≠ .go) (doc : Document) :
    (analyze l doc).injection = {} ∧ (analyze l doc).designPatterns = [] ∧
      (analyze l doc).naming.interfacePrefix = none := by
  have hnone : ∀ part ∈ [FindingsPart.injection, .designPatterns, .interfacePrefix],
      ∀ e ∈ partedPasses l, part ≠ e.1 := by
    cases l with
    | go => exact absurd rfl hl
    | python => simp [partedPasses]
    | typeScript => simp [partedPasses]
    | javaScript => simp [partedPasses]
    | rust => simp [partedPasses]
  exact ⟨partOf_analyze_of_no_pass (hnone .injection (by simp)) doc,
    partOf_analyze_of_no_pass (hnone .designPatterns (by simp)) doc,
    partOf_analyze_of_no_pass (hnone .interfacePrefix (by simp)) doc⟩

theorem coupled_of_untouched {f : Findings} (hinjection : f.injection = {})
    (hpatterns : f.designPatterns = []) (hletter : f.naming.interfacePrefix = none) :
    f.Coupled where
  constructors := by rw [hinjection, hpatterns]; simp
  interfaces := by rw [hletter]; nofun

/-- Whatever the tree, the analysis of a file makes both reports or neither. -/
theorem coupled_analyze (l : Language) (doc : Document) : (analyze l doc).Coupled := by
  by_cases hl : l = .go
  · subst hl
    refine ⟨?_, fun hletter => ?_⟩
    · rw [Go.mem_injectionPatterns, Go.factoryLabel_mem]
    · exact Go.strategyLabel_mem.mpr (Go.exists_interface hletter)
  · obtain ⟨hinjection, hpatterns, hletter⟩ := untouched_of_ne_go hl doc
    exact coupled_of_untouched hinjection hpatterns hletter

end Analysis

theorem Surroundings.Gives.coupled {w : Surroundings} {s : Settings} {root p : Path}
    {c : Contribution} (h : w.Gives s root p c) : c.findings.Coupled := by
  cases h with
  | heuristics _ => exact Analysis.coupled_of_untouched rfl rfl rfl
  | analysis l doc =>
    exact { Analysis.coupled_analyze l doc with }

/-- Coupled contributions stay coupled, however many are merged and in whatever order. -/
theorem Findings.coupled_pooled {cs : List Contribution} (h : ∀ c ∈ cs, c.findings.Coupled) :
    (pooled cs).Coupled where
  constructors := by
    have hinjection : Analysis.Go.constructorInjectionLabel ∈
        (pooled cs).labels .injectionPatterns ↔ _ := mem_labels_pooled cs
    have hpatterns : Analysis.Go.factoryLabel ∈ (pooled cs).labels .designPatterns ↔ _ :=
      mem_labels_pooled cs
    refine hinjection.trans (Iff.trans ?_ hpatterns.symm)
    exact exists_congr fun c => and_congr_right fun hc => (h c hc).constructors
  interfaces := by
    intro hletter
    obtain ⟨-, c, hc, hcletter⟩ := interfacePrefix_pooled_mem cs hletter
    exact (within_pooled hc).labels .designPatterns ((h c hc).interfaces hcletter)

theorem contributions_subset_of_schedule {files : List (Path × Stages)} {taken : List Call}
    {left : List (List Call)} (h : Schedule (callsOf files) taken left) :
    contributions taken ⊆ contributionsOf files := by
  rw [← contributions_flatten_callsOf]
  intro c hc
  have hmem : c ∈ contributions (taken ++ left.flatten) := by
    rw [contributions_append]
    exact List.mem_append_left _ hc
  exact (h.perm.filterMap _).mem_iff.mp hmem

/-- The result so far of an aggregate that is open. -/
theorem Aggregator.findings_performAll (deterministic : Bool) (calls : List Call) :
    ((fresh deterministic).performAll calls).result.findings =
      Findings.pooled (if deterministic then [] else contributions calls) := by
  cases deterministic with
  | false =>
    rw [fresh, performAll_default, Profile.foldl_apply_eq_pooled]
    rfl
  | true =>
    rw [fresh, performAll_deterministic]
    rfl

/-- In both modes, after every call of every schedule, the reports of the project agree, and so
do those that it would have if the aggregate were closed at this moment. -/
theorem run_findings_coupled {w : Surroundings} {s : Settings} {root : Path}
    {files : List (Path × Stages)} {taken : List Call} {left : List (List Call)}
    (deterministic : Bool) (hf : w.files s root = .ok files)
    (h : Schedule (callsOf files) taken left) :
    ((Aggregator.fresh deterministic).performAll taken).result.findings.Coupled ∧
      ((Aggregator.fresh deterministic).performAll taken).finalize.1.findings.Coupled := by
  have hcoupled : ∀ c ∈ contributions taken, c.findings.Coupled := by
    intro c hc
    obtain ⟨file, -, hgives⟩ :=
      Surroundings.gives_of_mem_contributionsOf hf (contributions_subset_of_schedule h hc)
    exact hgives.coupled
  constructor
  · rw [Aggregator.findings_performAll]
    refine Findings.coupled_pooled fun c hc => ?_
    split at hc
    · cases hc
    · exact hcoupled c hc
  · rw [Aggregator.finalize_performAll, Profile.findings_withStats]
    exact Findings.coupled_pooled fun c hc =>
      hcoupled c ((Aggregator.applied_perm deterministic _).mem_iff.mp hc)

/-- A test beside the sources, with an interface. -/
def sampleTestPath : Path := ⟨"", ["a_test.go"]⟩

def sampleTestText : String := "type IReader interface{}"

/-- A test in a directory of tests, with a constructor. -/
def sampleOtherPath : Path := ⟨"", ["tests", "test_b.go"]⟩

def sampleOtherText : String := "func NewGetDB() {}"

def sampleConstructor : Document where
  source := sampleOtherText.toUTF8
  root := .node "source_file" true none 0 18 [Analysis.sampleGetter 0]

def sampleTestEntries : List (String × Files.Node) :=
  [("a_test.go", .file (sampleTestText.toList.map fun c => c.val.toUInt8)),
    ("tests", .dir [("test_b.go", .file (sampleOtherText.toList.map fun c => c.val.toUInt8))])]

/-- The project of the two tests. -/
def sampleTests : Surroundings where
  tree := .dir sampleTestEntries
  parse _ source := .tree
    (if source = sampleTestText then Analysis.sampleInterface.root else sampleConstructor.root)

def sampleTestFiles : List (Path × Stages) :=
  [sampleTestPath, sampleOtherPath].map fun p =>
    (p, sampleTests.stages sampleSettings.maxFileSize ⟨"/", []⟩ p)

theorem files_sampleTests :
    sampleTests.files sampleSettings ⟨"/", []⟩ = .ok sampleTestFiles := by
  have hwalk : (Files.Node.dir sampleTestEntries).walk defaultSkipDirs ⟨"/", []⟩ =
      .ok [["a_test.go"], ["tests", "test_b.go"]] := by rfl
  have hkept : ([["a_test.go"], ["tests", "test_b.go"]].map fun way => (⟨"", way⟩ : Path)).filter
      (Files.isCandidate true defaultSkipDirs) = [sampleTestPath, sampleOtherPath] := by decide
  have hdiscover : Files.discover _ _ _ true defaultSkipDirs =
      .ok [sampleTestPath, sampleOtherPath] :=
    Files.discover_root hwalk (.of_eq hkept) (by decide)
  exact bind_eq_ok.mpr ⟨_, hdiscover, rfl⟩

theorem read_sampleTests :
    Files.readSource sampleTests.tree ⟨"/", []⟩ sampleTestPath (.whole 1) = .ok sampleTestText ∧
      Files.readSource sampleTests.tree ⟨"/", []⟩ sampleOtherPath (.whole 1) =
        .ok sampleOtherText := by
  have hnames : ∀ name ∈ ["a_test.go", "tests", "test_b.go"],
      ¬Files.maxNameLength < name.utf8ByteSize := by decide
  have hbeside : Files.place sampleTests.tree ⟨"/", ["a_test.go"]⟩ = .ok ["a_test.go"] := by
    simp [Files.place, Files.follow, sampleTests, sampleTestEntries, Files.Node.at?, Files.child?,
      Files.staysHere, hnames]
  have hinner : Files.place sampleTests.tree ⟨"/", ["tests", "test_b.go"]⟩ =
      .ok ["tests", "test_b.go"] := by
    simp [Files.place, Files.follow, sampleTests, sampleTestEntries, Files.Node.at?, Files.child?,
      Files.staysHere, hnames]
  exact ⟨Files.readSource_eq_ok.mpr ⟨by decide, _, 1 * 1024 * 1024,
      Files.stat_eq_ok.mpr ⟨by decide, _, hbeside, rfl⟩, rfl, by decide, by decide⟩,
    Files.readSource_eq_ok.mpr ⟨by decide, _, 1 * 1024 * 1024,
      Files.stat_eq_ok.mpr ⟨by decide, _, hinner, rfl⟩, rfl, by decide, by decide⟩⟩

/-- What is found in the first test by its tree, and in the second one. -/
def sampleAnalyses : List Contribution :=
  [⟨"a_test.go", Analysis.analyzeFile sampleTestPath .go Analysis.sampleInterface, some "Go"⟩,
    ⟨"tests/test_b.go", Analysis.analyzeFile sampleOtherPath .go sampleConstructor, some "Go"⟩]

/-- The first rules have looked at the second test before they come to the first one, and both
tests are analysed, but neither is counted yet. -/
def sampleTestTaken : List Call :=
  [.count .visited, .count .visited,
    heuristicCall "tests/test_b.go" (Heuristics.findings sampleOtherPath sampleOtherText),
    heuristicCall "a_test.go" (Heuristics.findings sampleTestPath sampleTestText)] ++
      sampleAnalyses.map .merge

def sampleTestLeft : List (List Call) := [[.count .parsed], [.count .parsed]]

theorem callsOf_sampleTestFiles : callsOf sampleTestFiles =
    [[.count .visited,
        heuristicCall "a_test.go" (Heuristics.findings sampleTestPath sampleTestText),
        .merge ⟨"a_test.go", Analysis.analyzeFile sampleTestPath .go Analysis.sampleInterface,
          some "Go"⟩, .count .parsed],
      [.count .visited,
        heuristicCall "tests/test_b.go" (Heuristics.findings sampleOtherPath sampleOtherText),
        .merge ⟨"tests/test_b.go", Analysis.analyzeFile sampleOtherPath .go sampleConstructor,
          some "Go"⟩, .count .parsed]] := by
  obtain ⟨hfirst, hsecond⟩ := read_sampleTests
  have hinterface : (sampleTests.stages (.whole 1) ⟨"/", []⟩ sampleTestPath).outcome =
      .parsed (Heuristics.findings sampleTestPath sampleTestText) .go
        (Analysis.analyzeFile sampleTestPath .go Analysis.sampleInterface) :=
    Surroundings.outcome_of_document (r := (.go, .go)) hfirst (by decide) rfl rfl
  have hconstructor : (sampleTests.stages (.whole 1) ⟨"/", []⟩ sampleOtherPath).outcome =
      .parsed (Heuristics.findings sampleOtherPath sampleOtherText) .go
        (Analysis.analyzeFile sampleOtherPath .go sampleConstructor) :=
    Surroundings.outcome_of_document (r := (.go, .go)) hsecond (by decide) rfl rfl
  have hsize : sampleSettings.maxFileSize = .whole 1 := rfl
  simp only [callsOf, sampleTestFiles, List.map_cons, List.map_nil, Stages.calls_eq, hsize,
    hinterface, hconstructor]
  rfl

theorem schedule_sampleTests :
    Schedule (callsOf sampleTestFiles) sampleTestTaken sampleTestLeft := by
  rw [callsOf_sampleTestFiles]
  exact .step (.first ..) <| .step (.later _ (.first ..)) <| .step (.later _ (.first ..)) <|
    .step (.first ..) <| .step (.first ..) <| .step (.later _ (.first ..)) <| .start _

theorem interleaves_sampleTests :
    Interleaves (callsOf sampleTestFiles) (sampleTestTaken ++ sampleTestLeft.flatten) := by
  rw [callsOf_sampleTestFiles]
  exact ⟨[[], []],
    .step (.first ..) <| .step (.later _ (.first ..)) <| .step (.later _ (.first ..)) <|
      .step (.first ..) <| .step (.first ..) <| .step (.later _ (.first ..)) <|
        .step (.first ..) <| .step (.later _ (.first ..)) <| .start _,
    by simp⟩

theorem hasConstructor_sampleConstructor : Analysis.Go.HasConstructor sampleConstructor :=
  ⟨"NewGetDB", Analysis.sampleGetter 0,
    .function (List.mem_cons_of_mem _ List.mem_cons_self) ⟨rfl, rfl⟩
      ⟨List.mem_singleton_self _, rfl⟩ ⟨rfl, rfl⟩ (by decide +kernel),
    Analysis.Go.isConstructorName_iff.mp (by decide)⟩

/-- Of two tests that are taken together, one has a constructor and the other one an interface with
the prefix. Before either is counted the patterns of both are there. -/
theorem run_findings_coupled_sample :
    let f := ((Aggregator.fresh false).performAll sampleTestTaken).result.findings
    (Analysis.Go.constructorInjectionLabel ∈ f.injection.patterns ∧
      Analysis.Go.factoryLabel ∈ f.designPatterns) ∧
    f.naming.interfacePrefix = some "I" ∧ Analysis.Go.strategyLabel ∈ f.designPatterns := by
  have hrun := (run_findings_coupled false files_sampleTests schedule_sampleTests).1
  have hfindings := Aggregator.findings_performAll false sampleTestTaken
  rw [if_neg Bool.false_ne_true] at hfindings
  have hconstructor : Analysis.Go.constructorInjectionLabel ∈
      ((Aggregator.fresh false).performAll sampleTestTaken).result.findings.injection.patterns := by
    rw [hfindings]
    have hanalysis : Analysis.Go.constructorInjectionLabel ∈
        (Analysis.analyzeFile sampleOtherPath .go sampleConstructor).labels .injectionPatterns :=
      Analysis.Go.mem_injectionPatterns.mpr hasConstructor_sampleConstructor
    have hpooled : Analysis.Go.constructorInjectionLabel ∈
        (Findings.pooled (contributions sampleTestTaken)).labels .injectionPatterns :=
      (Findings.mem_labels_pooled _).mpr
        ⟨_, List.mem_of_getElem? (i := 3) rfl, hanalysis⟩
    exact hpooled
  have hprefix : ((Aggregator.fresh false).performAll
      sampleTestTaken).result.findings.naming.interfacePrefix = some "I" := by
    have hanalysis : (Analysis.analyzeFile sampleTestPath .go
        Analysis.sampleInterface).naming.interfacePrefix = some "I" :=
      Analysis.interfacePrefix_sampleInterface
    have hfirst : firstOptional ((contributions sampleTestTaken).map
        (·.findings.naming.interfacePrefix)) = some "I" := by
      show firstOptional [none, none, (Analysis.analyzeFile sampleTestPath .go
        Analysis.sampleInterface).naming.interfacePrefix, _] = some "I"
      rw [hanalysis]
      simp [firstOptional]
    rw [hfindings]
    exact hfirst
  exact ⟨⟨hconstructor, hrun.constructors.mp hconstructor⟩, hprefix, hrun.interfaces hprefix⟩

/-- The text of the file at a path could be read. -/
def Surroundings.Readable (w : Surroundings) (s : Settings) (root p : Path) : Prop :=
  ∃ source, Files.readSource w.tree root p s.maxFileSize = .ok source

/-- The place of tests and the way they are named are those that one readable file shows by its
path, or they are not set because no readable file shows any. -/
def Surroundings.OneConvention (w : Surroundings) (s : Settings) (root : Path)
    (paths : List Path) (t : Testing) : Prop :=
  (t.location = "" ∧ t.namingPattern = "" ∧ ∀ p ∈ paths, w.Readable s root p →
      (Testing.ofPath p).location = "" ∧ (Testing.ofPath p).namingPattern = "") ∨
    ∃ p ∈ paths, w.Readable s root p ∧
      (Testing.ofPath p).location ≠ "" ∧ (Testing.ofPath p).namingPattern ≠ "" ∧
      t.location = (Testing.ofPath p).location ∧
      t.namingPattern = (Testing.ofPath p).namingPattern

/-- The contribution sets both fields or neither. -/
def Contribution.SetsBoth (c : Contribution) : Prop :=
  c.findings.testing.location = "" ↔ c.findings.testing.namingPattern = ""

theorem firstText_cons (t : String) (ts : List String) :
    firstText (t :: ts) = if t = "" then firstText ts else t := by
  by_cases ht : t = ""
  · simp [firstText, ht]
  · simp [firstText, ht]

/-- Two fields that are set together are both decided by the first element that sets them. -/
theorem firstText_together {α : Type} {f g : α → String} {as : List α}
    (h : ∀ a ∈ as, f a = "" ↔ g a = "") :
    (firstText (as.map f) = "" ∧ firstText (as.map g) = "" ∧ ∀ a ∈ as, f a = "" ∧ g a = "") ∨
      ∃ a ∈ as, f a ≠ "" ∧ firstText (as.map f) = f a ∧ firstText (as.map g) = g a := by
  induction as with
  | nil => exact Or.inl ⟨rfl, rfl, nofun⟩
  | cons a as ih =>
    obtain ⟨hboth, hrest⟩ := List.forall_mem_cons.mp h
    rw [List.map_cons, List.map_cons, firstText_cons, firstText_cons]
    by_cases hf : f a = ""
    · have hg : g a = "" := hboth.mp hf
      rw [if_pos hf, if_pos hg]
      rcases ih hrest with ⟨hnone, hnone', hall⟩ | ⟨b, hb, hset⟩
      · exact Or.inl ⟨hnone, hnone', List.forall_mem_cons.mpr ⟨⟨hf, hg⟩, hall⟩⟩
      · exact Or.inr ⟨b, List.mem_cons_of_mem a hb, hset⟩
    · have hg : g a ≠ "" := fun hg => hf (hboth.mpr hg)
      rw [if_neg hf, if_neg hg]
      exact Or.inr ⟨a, List.mem_cons_self, hf, rfl, rfl⟩

theorem Testing.setsBoth_ofPath (p : Path) :
    (ofPath p).location = "" ↔ (ofPath p).namingPattern = "" := by
  have hlocations : ∀ x ∈ TextField.testLocation.vocabulary, x ≠ "" := by decide
  have hpatterns : ∀ x ∈ TextField.namingPattern.vocabulary, x ≠ "" := by decide
  unfold ofPath
  dsimp only
  split
  · exact iff_of_false (hlocations _ (locationOf_mem _)) (hpatterns _ (patternOf_mem _))
  · exact Iff.rfl

theorem Surroundings.Gives.setsBoth {w : Surroundings} {s : Settings} {root p : Path}
    {c : Contribution} (h : w.Gives s root p c) : c.SetsBoth := by
  cases h with
  | heuristics _ => exact Testing.setsBoth_ofPath p
  | analysis l doc =>
    have hscope := Analysis.inScope_analyzeFile p l doc
    exact iff_of_true hscope.location hscope.namingPattern

/-- A convention that reaches the aggregate is that of the path of a readable file. -/
theorem Surroundings.Gives.convention {w : Surroundings} {s : Settings} {root p : Path}
    {c : Contribution} (h : w.Gives s root p c) (hset : c.findings.testing.location ≠ "") :
    w.Readable s root p ∧ c.findings.testing = Testing.ofPath p := by
  cases h with
  | @heuristics source hread => exact ⟨⟨source, hread⟩, rfl⟩
  | analysis l doc => exact absurd (Analysis.inScope_analyzeFile p l doc).location hset

theorem Surroundings.Readable.contributes {w : Surroundings} {s : Settings} {root : Path}
    {files : List (Path × Stages)} (hf : w.files s root = .ok files) {file : Path × Stages}
    (hfile : file ∈ files) (h : w.Readable s root file.1) :
    ∃ c ∈ contributionsOf files, c.findings.testing = Testing.ofPath file.1 := by
  obtain ⟨source, hread⟩ := h
  have hmem := Stages.heuristics_mem_contributions
    (read_stages.mpr hread : (w.stages s.maxFileSize root file.1).read = _) rfl file.1.text
  rw [← stages_of_mem hf hfile] at hmem
  exact ⟨_, List.mem_flatMap.mpr ⟨file, hfile, hmem⟩, rfl⟩

/-- On every schedule and in both modes the place of tests and the way they are named come from
one and the same file, although each is settled by itself. -/
theorem run_testConvention_of_one_file {w : Surroundings} {s : Settings} {root : Path}
    {files : List (Path × Stages)} {calls : List Call} (deterministic : Bool)
    (hf : w.files s root = .ok files) (h : Interleaves (callsOf files) calls) :
    w.OneConvention s root (files.map Prod.fst)
      ((Aggregator.fresh deterministic).performAll calls).finalize.1.findings.testing := by
  have hperm := h.applied_perm deterministic
  rw [Aggregator.finalize_performAll, Profile.findings_withStats]
  generalize Aggregator.applied deterministic (contributions calls) = cs at hperm ⊢
  have hgives : ∀ c ∈ cs, ∃ file ∈ files, w.Gives s root file.1 c :=
    fun c hc => Surroundings.gives_of_mem_contributionsOf hf (hperm.mem_iff.mp hc)
  have hboth : ∀ c ∈ cs, c.SetsBoth := by
    intro c hc
    obtain ⟨_, -, hc⟩ := hgives c hc
    exact hc.setsBoth
  rcases firstText_together hboth with ⟨hlocation, hpattern, hnone⟩ | ⟨c, hc, hset, hfirst⟩
  · refine Or.inl ⟨hlocation, hpattern, fun p hp hread => ?_⟩
    obtain ⟨file, hfile, rfl⟩ := List.mem_map.mp hp
    obtain ⟨c, hc, htesting⟩ := hread.contributes hf hfile
    rw [← htesting]
    exact hnone c (hperm.mem_iff.mpr hc)
  · obtain ⟨file, hfile, hgiven⟩ := hgives c hc
    obtain ⟨hread, htesting⟩ := hgiven.convention hset
    rw [htesting] at hset hfirst
    have hpattern : (Testing.ofPath file.1).namingPattern ≠ "" :=
      fun hnone => hset ((Testing.setsBoth_ofPath file.1).mpr hnone)
    exact Or.inr ⟨file.1, List.mem_map_of_mem hfile, hread, hset, hpattern, hfirst⟩

/-- Both tests show a convention, and the test that is found second is looked at first. Its place is
the one that counts, so the way of naming is its own as well. -/
theorem run_testConvention_of_one_file_sample :
    let t := ((Aggregator.fresh false).performAll
      (sampleTestTaken ++ sampleTestLeft.flatten)).finalize.1.findings.testing
    t.location = "Separate test directory" ∧ t.namingPattern = "test_*" ∧
      (Testing.ofPath sampleTestPath).location = "In-project/In-file" ∧
      (Testing.ofPath sampleTestPath).namingPattern = "*_test" := by
  have hbeside : (Testing.ofPath sampleTestPath).location = "In-project/In-file" ∧
      (Testing.ofPath sampleTestPath).namingPattern = "*_test" := by decide
  have hinner : (Testing.ofPath sampleOtherPath).location = "Separate test directory" ∧
      (Testing.ofPath sampleOtherPath).namingPattern = "test_*" := by decide
  have hlocation : ((Aggregator.fresh false).performAll
      (sampleTestTaken ++ sampleTestLeft.flatten)).finalize.1.findings.testing.location =
        "Separate test directory" := by
    obtain ⟨others, hothers⟩ : ∃ others,
        (contributions (sampleTestTaken ++ sampleTestLeft.flatten)).map
          (·.findings.testing.location) = (Testing.ofPath sampleOtherPath).location :: others :=
      ⟨_, rfl⟩
    rw [Aggregator.finalize_performAll, Profile.findings_withStats]
    show firstText ((contributions (sampleTestTaken ++ sampleTestLeft.flatten)).map
      (·.findings.testing.location)) = _
    rw [hothers, hinner.1, firstText_cons, if_neg (by decide)]
  refine ⟨hlocation, ?_, hbeside⟩
  rcases run_testConvention_of_one_file false files_sampleTests interleaves_sampleTests with
    ⟨hnone, -, -⟩ | ⟨p, hp, -, -, -, hplace, hpattern⟩
  · rw [hlocation] at hnone
    exact absurd hnone (by decide)
  · rw [hlocation] at hplace
    rcases List.mem_pair.mp hp with rfl | rfl
    · exact absurd (hplace.trans hbeside.1) (by decide)
    · exact hpattern.trans hinner.2

end Conventions
