import Conventions.Proofs.Analysis.Imports
import Conventions.Proofs.Analysis.Independence

/-!
# Test libraries of a Go file

Two tables of fragments tell from the imports how a file mocks and how it asserts. Each is settled
by one import alone, the earliest that contains a fragment of the table, and there by the first
fragment of the table that it contains. Where no import settles the mocking, a call of a package by
its name may. Imports that match only the other table make no difference.
-/
namespace Conventions

/-- What the imports of a Go file tell about its tests. -/
inductive TestAspect where
  | mocking
  | assertions
  deriving DecidableEq, Repr

/-- The libraries by which an aspect is told. -/
def TestAspect.libraries : TestAspect → List (String × String)
  | mocking => Analysis.Go.mockingLibraries
  | assertions => Analysis.Go.assertionLibraries

/-- What is recorded for an aspect. -/
def Testing.label (t : Testing) : TestAspect → String
  | .mocking => t.mocking
  | .assertions => t.assertions

namespace Analysis

open Syntax

/-- The path of an import. -/
def importPath (doc : Document) (t : Tree) : String := Literal.unquote (doc.text t)

/-- The label is that of the first fragment in the table that the path contains. -/
def FirstFragment (table : List (String × String)) (path label : String) : Prop :=
  ∃ before fragment after, table = before ++ (fragment, label) :: after ∧
    fragment.toList <:+: path.toList ∧ ∀ entry ∈ before, ¬entry.1.toList <:+: path.toList

/-- The node is an import with a fragment of the libraries for the aspect. -/
def Offers (aspect : TestAspect) (doc : Document) (t : Tree) : Prop :=
  Imports .go doc t ∧
    ∃ entry ∈ aspect.libraries, entry.1.toList <:+: (importPath doc t).toList

/-- Some call is one of a function that is selected from the package by its name. -/
def CallsPackage (doc : Document) (package : String) : Prop :=
  ∃ call ∈ doc.root.nodes, call.Is "call_expression" ∧ ∃ selector, call.Holds "function" selector ∧
    selector.Is "selector_expression" ∧
    (∃ operand, selector.Holds "operand" operand ∧ operand.Is "identifier" ∧
      doc.text operand = package) ∧
    ∃ method, selector.Holds "field" method ∧ method.Is "field_identifier"

/-- What is recorded where no import settles the aspect. -/
inductive Fallback (doc : Document) : TestAspect → String → Prop
  | called (h : CallsPackage doc "gomock") : Fallback doc .mocking "gomock"
  | notCalled (h : ¬CallsPackage doc "gomock") : Fallback doc .mocking ""
  | assertions : Fallback doc .assertions ""

/-- What settles an aspect: the earliest import for it or, without any, the fallback. -/
inductive Settled (aspect : TestAspect) (doc : Document) : String → Prop
  | imported {t : Tree} {label : String} (ht : Earliest (Offers aspect doc) t)
      (h : FirstFragment aspect.libraries (importPath doc t) label) : Settled aspect doc label
  | absent {label : String} (hnone : ¬∃ t, Offers aspect doc t) (h : Fallback doc aspect label) :
      Settled aspect doc label

/-- The label of the first fragment that a path contains. -/
def fragmentLabel? (table : List (String × String)) (path : String) : Option String :=
  (table.find? fun entry => Text.within entry.1 path).map Prod.snd

section

variable {table : List (String × String)} {path label : String}

theorem fragmentLabel?_eq_some_iff :
    fragmentLabel? table path = some label ↔ FirstFragment table path label := by
  simp only [fragmentLabel?, FirstFragment, Option.map_eq_some_iff, List.find?_eq_some_iff_append,
    Text.within, Text.occurs_iff, Bool.not_eq_true', ← Bool.not_eq_true]
  constructor
  · rintro ⟨⟨fragment, _⟩, ⟨hfragment, before, after, htable, hbefore⟩, rfl⟩
    exact ⟨before, fragment, after, htable, hfragment, hbefore⟩
  · intro ⟨before, fragment, after, htable, hfragment, hbefore⟩
    exact ⟨(fragment, label), ⟨hfragment, before, after, htable, hbefore⟩, rfl⟩

theorem fragmentLabel?_cons (entry : String × String) :
    fragmentLabel? (entry :: table) path =
      if Text.within entry.1 path = true then some entry.2 else fragmentLabel? table path := by
  unfold fragmentLabel?
  split
  next h => rw [List.find?_cons_of_pos (by exact h), Option.map_some]
  next h => rw [List.find?_cons_of_neg (by exact h)]

theorem FirstFragment.unique {other : String} (h : FirstFragment table path label)
    (h' : FirstFragment table path other) : label = other := by
  rw [← fragmentLabel?_eq_some_iff] at h h'
  exact Option.some.inj (h.symm.trans h')

theorem isSome_fragmentLabel? : (fragmentLabel? table path).isSome = true ↔
    ∃ entry ∈ table, entry.1.toList <:+: path.toList := by
  simp only [fragmentLabel?, Option.isSome_map, List.find?_isSome, Text.within, Text.occurs_iff]

theorem mem_of_fragmentLabel? (h : fragmentLabel? table path = some label) :
    ∃ entry ∈ table, entry.2 = label := by
  obtain ⟨entry, hentry, hlabel⟩ := Option.map_eq_some_iff.mp h
  exact ⟨entry, List.mem_of_find?_eq_some hentry, hlabel⟩

/-- A label that is there stays. -/
theorem settleLabel_of_ne {current : String} (h : current ≠ "") :
    Go.settleLabel table current path = current := by
  unfold Go.settleLabel
  refine List.foldlRecOn (motive := fun l => l = current) _ _ rfl fun l hl entry _ => ?_
  rw [hl, if_neg (by simp [h])]

theorem settleLabel_empty (hnames : ∀ entry ∈ table, entry.2 ≠ "") :
    Go.settleLabel table "" path = (fragmentLabel? table path).getD "" := by
  induction table with
  | nil => rfl
  | cons entry table ih =>
    obtain ⟨hname, hrest⟩ := List.forall_mem_cons.mp hnames
    have hstep : Go.settleLabel (entry :: table) "" path =
        Go.settleLabel table (if Text.within entry.1 path = true then entry.2 else "") path := by
      simp [Go.settleLabel]
    rw [hstep, fragmentLabel?_cons]
    split
    · exact settleLabel_of_ne hname
    · exact ih hrest

/-- Of all imports the first with some fragment settles the label. -/
theorem foldl_settleLabel (hnames : ∀ entry ∈ table, entry.2 ≠ "") {α : Type} (xs : List α)
    (pathOf : α → String) : (xs.map pathOf).foldl (Go.settleLabel table) "" =
      ((xs.find? fun x => (fragmentLabel? table (pathOf x)).isSome).bind fun x =>
        fragmentLabel? table (pathOf x)).getD "" := by
  induction xs with
  | nil => rfl
  | cons x xs ih =>
    rw [List.map_cons, List.foldl_cons, settleLabel_empty hnames]
    cases hx : fragmentLabel? table (pathOf x) with
    | none =>
      rw [List.find?_cons_of_neg (by simp [hx])]
      exact ih
    | some label =>
      obtain ⟨entry, hentry, rfl⟩ := mem_of_fragmentLabel? hx
      rw [List.find?_cons_of_pos (by simp [hx])]
      simp only [Option.bind_some, hx, Option.getD_some]
      refine List.foldlRecOn (motive := fun l => l = entry.2) _ _ rfl fun l hl _ _ => ?_
      rw [hl, settleLabel_of_ne (hnames entry hentry)]

end

theorem label_ne_empty (aspect : TestAspect) : ∀ entry ∈ aspect.libraries, entry.2 ≠ "" := by
  cases aspect <;> decide

section

variable {doc : Document} {aspect : TestAspect}

/-- The first import with a fragment of the libraries for the aspect. -/
def firstOffer? (aspect : TestAspect) (doc : Document) : Option Tree :=
  (importNodes .go doc).find? fun t => (fragmentLabel? aspect.libraries (importPath doc t)).isSome

theorem offers_iff {t : Tree} : Offers aspect doc t ↔ Imports .go doc t ∧
    (fragmentLabel? aspect.libraries (importPath doc t)).isSome = true := by
  rw [Offers, isSome_fragmentLabel?]

theorem Offers.exists_node {t : Tree} (h : Offers aspect doc t) :
    ∃ u ∈ importNodes .go doc, (fragmentLabel? aspect.libraries (importPath doc u)).isSome = true ∧
      u.start = t.start := by
  obtain ⟨himport, hoffer⟩ := offers_iff.mp h
  obtain ⟨u, hu, hstart, htext⟩ := himport.exists_node
  refine ⟨u, hu, ?_, hstart⟩
  rw [importPath, htext]
  exact hoffer

theorem earliest_of_firstOffer? {t : Tree} (h : firstOffer? aspect doc = some t) :
    Earliest (Offers aspect doc) t := by
  apply earliest_of_find? h (pairwise_capturedNodes ..)
  · intro u hu hoffer
    exact offers_iff.mpr ⟨imports_of_mem_importNodes hu, hoffer⟩
  · intro u hu
    exact hu.exists_node

theorem firstOffer?_eq_none_iff : firstOffer? aspect doc = none ↔ ¬∃ t, Offers aspect doc t := by
  constructor
  · intro hnone ⟨t, ht⟩
    obtain ⟨u, hu, hoffer, -⟩ := ht.exists_node
    exact List.find?_eq_none.mp hnone u hu hoffer
  · intro hnone
    apply List.find?_eq_none.mpr
    intro t ht hoffer
    exact hnone ⟨t, offers_iff.mpr ⟨imports_of_mem_importNodes ht, hoffer⟩⟩

/-- The label that the imports settle. -/
def settledLabel (aspect : TestAspect) (doc : Document) : String :=
  (Go.imports doc).foldl (Go.settleLabel aspect.libraries) ""

theorem settledLabel_eq (aspect : TestAspect) (doc : Document) :
    settledLabel aspect doc = ((firstOffer? aspect doc).bind fun t =>
      fragmentLabel? aspect.libraries (importPath doc t)).getD "" := by
  have himports : Go.imports doc = (importNodes .go doc).map (importPath doc) :=
    importsOf_eq .go doc
  rw [settledLabel, himports]
  exact foldl_settleLabel (label_ne_empty aspect) _ _

theorem settledLabel_of_some {t : Tree} (h : firstOffer? aspect doc = some t) :
    FirstFragment aspect.libraries (importPath doc t) (settledLabel aspect doc) ∧
      settledLabel aspect doc ≠ "" := by
  have hoffer := List.find?_some (p := fun t =>
    (fragmentLabel? aspect.libraries (importPath doc t)).isSome) h
  obtain ⟨label, hlabel⟩ := Option.isSome_iff_exists.mp hoffer
  have hsettled : settledLabel aspect doc = label := by
    rw [settledLabel_eq, h, Option.bind_some, hlabel, Option.getD_some]
  obtain ⟨entry, hentry, rfl⟩ := mem_of_fragmentLabel? hlabel
  rw [hsettled]
  exact ⟨fragmentLabel?_eq_some_iff.mp hlabel, label_ne_empty aspect entry hentry⟩

theorem settledLabel_of_none (h : firstOffer? aspect doc = none) :
    settledLabel aspect doc = "" := by
  rw [settledLabel_eq, h, Option.bind_none, Option.getD_none]

theorem binds_packageCall {t : Tree} : Binds doc Go.packageCallQuery "call.package" t ↔
    ∃ call ∈ doc.root.nodes, call.Is "call_expression" ∧ ∃ selector,
      call.Holds "function" selector ∧ selector.Is "selector_expression" ∧
      selector.Holds "operand" t ∧ t.Is "identifier" ∧
      ∃ method, selector.Holds "field" method ∧ method.Is "field_identifier" := by
  simp [binds_iff, Go.packageCallQuery]

theorem callsPackage_iff {package : String} : CallsPackage doc package ↔
    package ∈ capturedTexts doc Go.packageCallQuery "call.package" := by
  rw [capturedTexts_eq, List.mem_map]
  constructor
  · intro ⟨call, hcall, hkind, selector, hselector, hselects, ⟨t, ht, hname, htext⟩, hmethod⟩
    have hbinds := binds_packageCall.mpr
      ⟨call, hcall, hkind, selector, hselector, hselects, ht, hname, hmethod⟩
    obtain ⟨u, hu, -, hsame⟩ := hbinds.exists_node
    exact ⟨u, hu, hsame.trans htext⟩
  · intro ⟨t, ht, htext⟩
    obtain ⟨call, hcall, hkind, selector, hselector, hselects, ht, hname, hmethod⟩ :=
      binds_packageCall.mp (binds_of_mem_captured (mem_capturedNodes.mp ht))
    exact ⟨call, hcall, hkind, selector, hselector, hselects, ⟨t, ht, hname, htext⟩, hmethod⟩

end

/-- The label that the names of called packages settle. -/
def packageLabel (packages : List String) : String :=
  (packages.findSome? fun package =>
    (Go.mockingPackages.find? fun m => m.1 == package).map (·.2)).getD ""

theorem packageLabel_eq (packages : List String) :
    packageLabel packages = if "gomock" ∈ packages then "gomock" else "" := by
  induction packages with
  | nil => rfl
  | cons package packages ih =>
    by_cases hpackage : package = "gomock"
    · subst hpackage
      simp [packageLabel, Go.mockingPackages]
    · have hother : "gomock" ≠ package := Ne.symm hpackage
      have hstep : packageLabel (package :: packages) = packageLabel packages := by
        simp [packageLabel, Go.mockingPackages, hother]
      rw [hstep, ih]
      simp [hother]

section

variable {doc other : Document} {aspect : TestAspect} {label : String}

theorem testing_analyze (doc : Document) :
    (analyze .go doc).testing = (Go.testingPass doc {}).testing := by
  have hpass : (FindingsPart.testing, Go.testingPass) ∈ partedPasses .go := by
    simp [partedPasses]
  exact partOf_analyze hpass doc

theorem mocking_analyze (doc : Document) : (analyze .go doc).testing.label .mocking =
    if settledLabel .mocking doc = "" then
      packageLabel (capturedTexts doc Go.packageCallQuery "call.package")
    else settledLabel .mocking doc := by
  rw [testing_analyze]
  rfl

theorem assertions_analyze (doc : Document) :
    (analyze .go doc).testing.label .assertions = settledLabel .assertions doc := by
  rw [testing_analyze]
  rfl

theorem label_of_some {t : Tree} (h : firstOffer? aspect doc = some t) :
    FirstFragment aspect.libraries (importPath doc t) ((analyze .go doc).testing.label aspect) := by
  obtain ⟨hlabel, hname⟩ := settledLabel_of_some h
  cases aspect with
  | mocking =>
    rw [mocking_analyze, if_neg hname]
    exact hlabel
  | assertions =>
    rw [assertions_analyze]
    exact hlabel

theorem label_of_none (h : firstOffer? aspect doc = none) :
    Fallback doc aspect ((analyze .go doc).testing.label aspect) := by
  have hempty := settledLabel_of_none h
  cases aspect with
  | mocking =>
    rw [mocking_analyze, if_pos hempty, packageLabel_eq]
    split
    next hcalls => exact .called (callsPackage_iff.mpr hcalls)
    next hcalls => exact .notCalled fun hcall => hcalls (callsPackage_iff.mp hcall)
  | assertions =>
    rw [assertions_analyze, hempty]
    exact .assertions

theorem settled_testing (aspect : TestAspect) (doc : Document) :
    Settled aspect doc ((analyze .go doc).testing.label aspect) := by
  cases hfirst : firstOffer? aspect doc with
  | some t => exact .imported (earliest_of_firstOffer? hfirst) (label_of_some hfirst)
  | none => exact .absent (firstOffer?_eq_none_iff.mp hfirst) (label_of_none hfirst)

theorem Fallback.unique {a b : String} (ha : Fallback doc aspect a) (hb : Fallback doc aspect b) :
    a = b := by
  cases ha with
  | called h =>
    cases hb with
    | called => rfl
    | notCalled h' => exact absurd h h'
  | notCalled h =>
    cases hb with
    | called h' => exact absurd h' h
    | notCalled => rfl
  | assertions =>
    cases hb
    rfl

theorem Settled.unique (hdistinct : DistinctStarts (Offers aspect doc)) {a b : String}
    (ha : Settled aspect doc a) (hb : Settled aspect doc b) : a = b := by
  cases ha with
  | imported ht h =>
    cases hb with
    | imported ht' h' =>
      obtain rfl := ht.unique hdistinct ht'
      exact h.unique h'
    | absent hnone => exact absurd ⟨_, ht.1⟩ hnone
  | absent hnone h =>
    cases hb with
    | imported ht' => exact absurd ⟨_, ht'.1⟩ hnone
    | absent _ h' => exact h.unique h'

section

variable {place : Tree → Tree}

theorem Fallback.of_calls {label : String}
    (hcalls : aspect = .mocking → (CallsPackage other "gomock" ↔ CallsPackage doc "gomock"))
    (h : Fallback other aspect label) : Fallback doc aspect label := by
  cases h with
  | called hcall => exact .called ((hcalls rfl).mp hcall)
  | notCalled hcall => exact .notCalled (mt (hcalls rfl).mpr hcall)
  | assertions => exact .assertions

theorem Settled.of_corresponds {label : String}
    (h : Corresponds doc other (Offers aspect doc) (Offers aspect other) place)
    (hdistinct : DistinctStarts (Offers aspect doc))
    (hcalls : aspect = .mocking → (CallsPackage other "gomock" ↔ CallsPackage doc "gomock"))
    (hsettled : Settled aspect other label) : Settled aspect doc label := by
  cases hsettled with
  | imported hu hlabel =>
    obtain ⟨t, ht, rfl⟩ := (h.earliest_iff hdistinct).mp hu
    rw [importPath, h.text t ht.1] at hlabel
    exact .imported ht hlabel
  | absent hnone hlabel =>
    exact .absent (fun ⟨t, ht⟩ => hnone ⟨place t, h.kept t ht⟩) (hlabel.of_calls hcalls)

/-- If all imports but some are found again and none of those is for the aspect, then all imports
for the aspect are found again. -/
theorem corresponds_offers {gone : Tree → Prop} (hgone : ∀ t, gone t → ¬Offers aspect doc t)
    (h : Corresponds doc other (fun t => Imports .go doc t ∧ ¬gone t) (Imports .go other) place) :
    Corresponds doc other (Offers aspect doc) (Offers aspect other) place := by
  have hstays : ∀ {t}, Offers aspect doc t → Imports .go doc t ∧ ¬gone t := fun ht =>
    ⟨ht.1, fun hg => hgone _ hg ht⟩
  have hpath : ∀ {t}, Imports .go doc t ∧ ¬gone t →
      importPath other (place t) = importPath doc t := fun ht => by
    rw [importPath, h.text _ ht, importPath]
  refine ⟨⟨?_, ?_, ?_⟩, ?_⟩
  · intro t ht
    refine ⟨h.kept t (hstays ht), ?_⟩
    rw [hpath (hstays ht)]
    exact ht.2
  · intro t ht
    exact h.text t (hstays ht)
  · intro s t hs ht hlt
    exact h.ordered s t (hstays hs) (hstays ht) hlt
  · intro u hu
    obtain ⟨t, ht, rfl⟩ := h.onto u hu.1
    rw [Offers, hpath ht] at hu
    exact ⟨t, ⟨ht.1, hu.2⟩, rfl⟩

end

/-- Each aspect is told by the first library in the earliest import for it, and else by the
fallback. Imports that are not for it may go without changing what is recorded. -/
theorem testing_of_first_library (doc : Document) (aspect : TestAspect) :
    Settled aspect doc ((analyze .go doc).testing.label aspect) ∧
    (DistinctStarts (Offers aspect doc) → ∀ label, Settled aspect doc label →
      (analyze .go doc).testing.label aspect = label) ∧
    (∀ (other : Document) (place : Tree → Tree) (gone : Tree → Prop),
      (∀ t, gone t → ¬Offers aspect doc t) →
      Corresponds doc other (fun t => Imports .go doc t ∧ ¬gone t) (Imports .go other) place →
      DistinctStarts (Offers aspect doc) →
      (aspect = .mocking → (CallsPackage other "gomock" ↔ CallsPackage doc "gomock")) →
      (analyze .go other).testing.label aspect = (analyze .go doc).testing.label aspect) := by
  refine ⟨settled_testing aspect doc, ?_, ?_⟩
  · intro hdistinct label hlabel
    exact (settled_testing aspect doc).unique hdistinct hlabel
  · intro other place gone hgone h hdistinct hcalls
    have hsettled := (settled_testing aspect other).of_corresponds (corresponds_offers hgone h)
      hdistinct hcalls
    exact hsettled.unique hdistinct (settled_testing aspect doc)

end

def samplePath (start stop : Nat) : Tree :=
  .node "interpreted_string_literal" true (some "path") start stop []

def sampleSpec (start stop : Nat) : Tree :=
  .node "import_declaration" true none (start - 7) stop
    [.node "import_spec" true none start stop [samplePath start stop]]

/-- A Go file that imports a library for assertions and one for mocking. -/
def sampleTestImports : Document where
  source := "import \"github.com/onsi/gomega\"\nimport \"go.uber.org/mock/gomock\"".toUTF8
  root := .node "source_file" true none 0 64 [sampleSpec 7 31, sampleSpec 39 64]

/-- The same file without the library for assertions. -/
def sampleMockImport : Document where
  source := "import \"go.uber.org/mock/gomock\"".toUTF8
  root := .node "source_file" true none 0 32 [sampleSpec 7 32]

theorem imports_sampleTestImports {t : Tree} :
    Imports .go sampleTestImports t ↔ t = samplePath 7 31 ∨ t = samplePath 39 64 := by
  have hmatches : (importQueryOf .go).matches sampleTestImports =
      [[(importCapture .go, samplePath 7 31)], [(importCapture .go, samplePath 39 64)]] := rfl
  rw [← binds_importQuery, Binds, hmatches]
  simp

theorem imports_sampleMockImport {t : Tree} :
    Imports .go sampleMockImport t ↔ t = samplePath 7 32 := by
  have hmatches : (importQueryOf .go).matches sampleMockImport =
      [[(importCapture .go, samplePath 7 32)]] := rfl
  rw [← binds_importQuery, Binds, hmatches]
  simp

theorem importPath_sampleTestImports :
    importPath sampleTestImports (samplePath 7 31) = "github.com/onsi/gomega" ∧
      importPath sampleTestImports (samplePath 39 64) = "go.uber.org/mock/gomock" := by
  decide +kernel

theorem importPath_sampleMockImport :
    importPath sampleMockImport (samplePath 7 32) = "go.uber.org/mock/gomock" := by
  decide +kernel

theorem offers_mocking_sampleTestImports (t : Tree) :
    Offers .mocking sampleTestImports t ↔ t = samplePath 39 64 := by
  obtain ⟨hgomega, hgomock⟩ := importPath_sampleTestImports
  rw [offers_iff, imports_sampleTestImports]
  constructor
  · rintro ⟨rfl | rfl, h⟩
    · rw [hgomega] at h
      exact absurd h (by decide +kernel)
    · rfl
  · rintro rfl
    rw [hgomock]
    exact ⟨Or.inr rfl, by decide +kernel⟩

theorem offers_assertions_sampleTestImports (t : Tree) :
    Offers .assertions sampleTestImports t ↔ t = samplePath 7 31 := by
  obtain ⟨hgomega, hgomock⟩ := importPath_sampleTestImports
  rw [offers_iff, imports_sampleTestImports]
  constructor
  · rintro ⟨rfl | rfl, h⟩
    · rfl
    · rw [hgomock] at h
      exact absurd h (by decide +kernel)
  · rintro rfl
    rw [hgomega]
    exact ⟨Or.inl rfl, by decide +kernel⟩

theorem not_offers_assertions_sampleMockImport (t : Tree) :
    ¬Offers .assertions sampleMockImport t := by
  rw [offers_iff, imports_sampleMockImport]
  rintro ⟨rfl, h⟩
  rw [importPath_sampleMockImport] at h
  exact absurd h (by decide +kernel)

theorem corresponds_sampleMockImport : Corresponds sampleTestImports sampleMockImport
    (fun t => Imports .go sampleTestImports t ∧ ¬t = samplePath 7 31)
    (Imports .go sampleMockImport) fun _ => samplePath 7 32 := by
  apply corresponds_of_only (t := samplePath 39 64)
  · intro t
    rw [imports_sampleTestImports]
    constructor
    · rintro ⟨h | h, hgone⟩
      · exact absurd h hgone
      · exact h
    · rintro rfl
      exact ⟨Or.inr rfl, by simp [samplePath]⟩
  · intro t
    exact imports_sampleMockImport
  · decide +kernel

theorem not_callsPackage_of_matches_eq {doc : Document} {package : String}
    (h : Go.packageCallQuery.matches doc = []) : ¬CallsPackage doc package := by
  rw [callsPackage_iff, mem_capturedTexts, h]
  simp

/-- The library for assertions goes and takes its own label with it, but not the other one. -/
theorem testing_of_first_library_sample :
    (analyze .go sampleTestImports).testing.label .mocking = "gomock" ∧
      (analyze .go sampleMockImport).testing.label .mocking = "gomock" ∧
      (analyze .go sampleTestImports).testing.label .assertions = "gomega" ∧
      (analyze .go sampleMockImport).testing.label .assertions = "" := by
  obtain ⟨hgomega, hgomock⟩ := importPath_sampleTestImports
  have hmockFragment : FirstFragment Go.mockingLibraries "go.uber.org/mock/gomock" "gomock" :=
    fragmentLabel?_eq_some_iff.mp (by decide +kernel)
  have hassertFragment : FirstFragment Go.assertionLibraries "github.com/onsi/gomega" "gomega" :=
    fragmentLabel?_eq_some_iff.mp (by decide +kernel)
  have hdistinct := distinctStarts_of_only offers_mocking_sampleTestImports
  obtain ⟨-, hmocking, hedit⟩ := testing_of_first_library sampleTestImports .mocking
  obtain ⟨-, hassertions, -⟩ := testing_of_first_library sampleTestImports .assertions
  obtain ⟨-, hnone, -⟩ := testing_of_first_library sampleMockImport .assertions
  have hlabel := hmocking hdistinct "gomock"
    (.imported (earliest_of_only offers_mocking_sampleTestImports) (hgomock ▸ hmockFragment))
  refine ⟨hlabel, ?_, ?_, ?_⟩
  · rw [← hlabel]
    apply hedit _ _ _ ?_ corresponds_sampleMockImport hdistinct
    · intro _
      exact iff_of_false (not_callsPackage_of_matches_eq rfl) (not_callsPackage_of_matches_eq rfl)
    · rintro t rfl ht
      exact absurd ((offers_mocking_sampleTestImports _).mp ht) (by simp [samplePath])
  · exact hassertions (distinctStarts_of_only offers_assertions_sampleTestImports) "gomega"
      (.imported (earliest_of_only offers_assertions_sampleTestImports)
        (hgomega ▸ hassertFragment))
  · refine hnone (fun s t hs => absurd hs (not_offers_assertions_sampleMockImport s)) ""
      (.absent ?_ .assertions)
    intro ⟨t, ht⟩
    exact not_offers_assertions_sampleMockImport t ht

end Analysis

end Conventions
