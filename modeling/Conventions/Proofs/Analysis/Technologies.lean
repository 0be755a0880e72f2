import Conventions.Proofs.Analysis.Imports
import Conventions.Proofs.Analysis.Independence
import Conventions.Proofs.Findings.Firsts
import Conventions.Proofs.Technology.Package

/-!
# Technologies of a file

In each category a file lists the technologies whose signatures its imports match, and no others.
Each is listed once. They come in the order of the first import that matches and, where one import
matches several signatures, in the order of the table.

Nothing is said about the order of two imports that start at one octet and differ in their texts.
-/
namespace Conventions.Analysis

open Syntax

/-- The signatures of a language. -/
def signaturesOf : Language → List (String × Technology)
  | .go => Technology.goSignatures
  | .python => Technology.pythonSignatures
  | .typeScript | .javaScript => Technology.scriptSignatures
  | .rust => Technology.rustSignatures

/-- How an import with this text matches the key of a signature. -/
def Recognises : Language → String → String → Prop
  | .go, key, text => key.toList <:+: (Literal.unquote text).toList
  | .python, key, text => ∃ root : String,
    Text.FirstPart '.' text.toList root.toList ∧ Technology.StandsFor key root
  | .typeScript, key, text | .javaScript, key, text =>
    ∃ package, Technology.NamesPackage (Literal.unquote text) package ∧
      Technology.StandsFor key package
  | .rust, key, text => key.toList <:+: text.toList

/-- The text of an import that names no package, whatever the signatures are. -/
def NamesNothing : Language → String → Prop
  | .typeScript, text | .javaScript, text => Technology.NamesNoPackage (Literal.unquote text)
  | .go, _ | .python, _ | .rust, _ => False

theorem not_recognises_of_namesNothing {l : Language} {text : String} (h : NamesNothing l text)
    (key : String) : ¬Recognises l key text := by
  have hpackage : ∀ {specifier package : String}, Technology.NamesNoPackage specifier →
      ¬Technology.NamesPackage specifier package := by
    intro specifier package hnone hsome
    cases hsome <;> contradiction
  cases l with
  | typeScript => exact fun ⟨_, hsome, _⟩ => hpackage h hsome
  | javaScript => exact fun ⟨_, hsome, _⟩ => hpackage h hsome
  | _ => cases h

/-- The test by which the signatures of a language are looked up. -/
def recognises : Language → String → String → Bool
  | .go, key, text => Text.within key (Literal.unquote text)
  | .python, key, text => Technology.keyNames key (Technology.rootModule text)
  | .typeScript, key, text | .javaScript, key, text =>
    (Technology.scriptPackage? (Literal.unquote text)).any (Technology.keyNames key)
  | .rust, key, text => Text.within key text

theorem recognises_iff {l : Language} {key text : String} :
    recognises l key text = true ↔ Recognises l key text := by
  have hscript : ∀ specifier, (Technology.scriptPackage? specifier).any (Technology.keyNames key) =
      true ↔ ∃ package, Technology.NamesPackage specifier package ∧
        Technology.StandsFor key package := by
    intro specifier
    simp only [Option.any_eq_true, Technology.scriptPackage?_eq_some_iff, Technology.keyNames_iff]
  cases l with
  | go => exact Text.occurs_iff
  | python =>
    rw [recognises, Technology.keyNames_iff]
    constructor
    · intro h
      exact ⟨_, Text.upTo_eq_iff.mp rfl, h⟩
    · intro ⟨root, hroot, h⟩
      rwa [Technology.rootModule, Text.upTo_eq_iff.mpr hroot]
  | typeScript => exact hscript _
  | javaScript => exact hscript _
  | rust => exact Text.occurs_iff

instance (l : Language) (key text : String) : Decidable (Recognises l key text) :=
  decidable_of_iff _ recognises_iff

theorem technologiesOf_importText (l : Language) (text : String) :
    technologiesOf l (importText l text) =
      (signaturesOf l).filter fun entry => recognises l entry.1 text := by
  have hscript : ∀ specifier, Script.technologies specifier =
      Technology.scriptSignatures.filter fun entry =>
        (Technology.scriptPackage? specifier).any (Technology.keyNames entry.1) := by
    intro specifier
    unfold Script.technologies
    cases Technology.scriptPackage? specifier with
    | none => simp
    | some package => rfl
  cases l with
  | typeScript => exact hscript _
  | javaScript => exact hscript _
  | _ => rfl

/-- An import of the file matches the signature at this place of the table, which stands for a
technology of this category and name. -/
structure Sighting (l : Language) (doc : Document) (category : Category) (name : String)
    (x : Tree × Nat) : Prop where
  imported : Imports l doc x.1
  recognised : ∃ key, (signaturesOf l)[x.2]? = some (key, ⟨category, name⟩) ∧
    Recognises l key (doc.text x.1)

/-- The first import comes first in the source or, where both start at one octet and say the same,
the first signature comes first in the table. -/
def Precedes (doc : Document) (x y : Tree × Nat) : Prop :=
  x.1.start < y.1.start ∨
    x.1.start = y.1.start ∧ (doc.text x.1 = doc.text y.1 → x.2 < y.2)

/-- A node with a signature that it matches and the place of the signature. -/
abbrev Match := Tree × (String × Technology) × Nat

/-- All matches in the order in which the pass comes to them. -/
def matchesOf (l : Language) (doc : Document) : List Match :=
  (importNodes l doc).flatMap fun t =>
    ((signaturesOf l).zipIdx.filter fun e => recognises l e.1.1 (doc.text t)).map fun e => (t, e)

section

variable {l : Language} {doc : Document}

theorem mem_matchesOf {x : Match} : x ∈ matchesOf l doc ↔ x.1 ∈ importNodes l doc ∧
    (signaturesOf l)[x.2.2]? = some x.2.1 ∧ Recognises l x.2.1.1 (doc.text x.1) := by
  obtain ⟨t, entry, n⟩ := x
  simp only [matchesOf, List.mem_flatMap, List.mem_map, List.mem_filter,
    List.mem_zipIdx_iff_getElem?, recognises_iff, Prod.mk.injEq]
  constructor
  · rintro ⟨u, hu, e, he, rfl, rfl⟩
    exact ⟨hu, he⟩
  · intro ⟨ht, hentry⟩
    exact ⟨t, ht, (entry, n), hentry, rfl, rfl⟩

theorem pairwise_zipIdx {α : Type} (xs : List α) : xs.zipIdx.Pairwise fun a b => a.2 < b.2 := by
  apply List.pairwise_map.mp
  rw [List.zipIdx_map_snd]
  exact List.pairwise_lt_range' 1

theorem pairwise_matchesOf : (matchesOf l doc).Pairwise fun x y =>
    x.1.start ≤ y.1.start ∧ (x.1 = y.1 → x.2.2 < y.2.2) := by
  refine List.pairwise_flatMap.mpr ⟨fun t _ => ?_, ?_⟩
  · refine List.pairwise_map.mpr (((pairwise_zipIdx _).filter _).imp fun hlt => ?_)
    exact ⟨Nat.le_refl _, fun _ => hlt⟩
  · refine ((pairwise_capturedNodes ..).and (nodup_capturedNodes ..)).imp ?_
    intro t u ⟨hle, hne⟩ x hx y hy
    obtain ⟨e, -, rfl⟩ := List.mem_map.mp hx
    obtain ⟨e', -, rfl⟩ := List.mem_map.mp hy
    exact ⟨hle, fun heq => absurd heq hne⟩

theorem filter_eq_map_zipIdx {α : Type} (q : α → Bool) (xs : List α) :
    xs.filter q = (xs.zipIdx.filter fun e => q e.1).map Prod.fst := by
  conv_lhs => rw [← List.zipIdx_map_fst 0 xs, List.filter_map]
  rfl

theorem techStack_analyze (l : Language) (doc : Document) : (analyze l doc).techStack =
    (matchesOf l doc).foldl (fun s x => s.add x.2.1.2) {} := by
  have hpass : (FindingsPart.techStack, technologyPass (importsOf l) (technologiesOf l)) ∈
      partedPasses l := by
    cases l <;> simp [partedPasses, importsOf, technologiesOf]
  have hpart : (analyze l doc).techStack =
      (technologyPass (importsOf l) (technologiesOf l) doc {}).techStack := partOf_analyze hpass doc
  have himport : ∀ text, technologiesOf l (importText l text) =
      ((signaturesOf l).zipIdx.filter fun e => recognises l e.1.1 text).map Prod.fst := by
    intro text
    rw [technologiesOf_importText, filter_eq_map_zipIdx]
  rw [hpart, matchesOf, List.foldl_flatMap, technologyPass]
  simp only [importsOf_eq, List.foldl_map, himport]
  rfl

/-- The name that a match adds in a category. -/
def nameIn (category : Category) (x : Match) : Option String :=
  if category = x.2.1.2.category then some x.2.1.2.name else none

theorem nameIn_eq_some_iff {category : Category} {x : Match} {name : String} :
    nameIn category x = some name ↔ x.2.1.2 = ⟨category, name⟩ := by
  obtain ⟨_, ⟨_, own, other⟩, _⟩ := x
  simp [nameIn, eq_comm]

theorem names_foldl_add (category : Category) (xs : List Match) (s : TechStack) :
    (xs.foldl (fun s x => s.add x.2.1.2) s).names category =
      addAll (s.names category) (xs.filterMap (nameIn category)) := by
  induction xs generalizing s with
  | nil => rfl
  | cons x xs ih =>
    rw [List.foldl_cons, ih, names_add]
    by_cases hc : category = x.2.1.2.category
    · have hx : nameIn category x = some x.2.1.2.name := if_pos hc
      rw [if_pos hc, List.filterMap_cons_some hx]
      rfl
    · have hx : nameIn category x = none := if_neg hc
      rw [if_neg hc, List.filterMap_cons_none hx]

theorem names_techStack (l : Language) (doc : Document) (category : Category) :
    (analyze l doc).techStack.names category =
      addAll [] ((matchesOf l doc).filterMap (nameIn category)) := by
  rw [techStack_analyze, names_foldl_add]
  cases category <;> rfl

theorem buildTools_techStack (l : Language) (doc : Document) :
    (analyze l doc).techStack.buildTools = [] := by
  rw [techStack_analyze]
  exact List.foldlRecOn (motive := fun s : TechStack => s.buildTools = []) _ _ rfl
    fun s hs x _ => (buildTools_add s x.2.1.2).trans hs

theorem firstLabels_technologies (l : Language) (doc : Document) (category : Category) :
    FirstLabels (Sighting l doc category) (Precedes doc)
      ((analyze l doc).techStack.names category) := by
  rw [names_techStack]
  have hmatch : ∀ {name x}, Sighting l doc category name x → ∀ u ∈ importNodes l doc,
      doc.text u = doc.text x.1 → ∃ entry, (u, entry, x.2) ∈ matchesOf l doc ∧
        nameIn category (u, entry, x.2) = some name := by
    intro name x ⟨_, key, hentry, hkey⟩ u hu htext
    exact ⟨_, mem_matchesOf.mpr ⟨hu, hentry, htext ▸ hkey⟩, nameIn_eq_some_iff.mpr rfl⟩
  apply (firstLabels_addAll pairwise_matchesOf).transfer
  · intro name x hx
    obtain ⟨u, hu, -, htext⟩ := hx.imported.exists_node
    obtain ⟨entry, h⟩ := hmatch hx u hu htext
    exact ⟨_, h⟩
  · intro name ⟨t, ⟨key, technology⟩, n⟩ ⟨hx, hname⟩
    obtain ⟨ht, hentry, hkey⟩ := mem_matchesOf.mp hx
    obtain rfl : technology = ⟨category, name⟩ := nameIn_eq_some_iff.mp hname
    refine ⟨(t, n), ⟨imports_of_mem_importNodes ht, key, hentry, hkey⟩, ?_⟩
    intro other y _ hfirst hy
    obtain ⟨u, hu, hstart, htext⟩ := hy.imported.exists_node
    obtain ⟨_, hu⟩ := hmatch hy u hu htext
    have hle : t.start ≤ u.start := (hfirst _ hu).1
    rw [hstart] at hle
    rcases Nat.lt_or_eq_of_le hle with hlt | heq
    · exact Or.inl hlt
    -- An import with this text matches the other signature as well, here at the same node.
    · refine Or.inr ⟨heq, fun hsame => ?_⟩
      obtain ⟨_, hy⟩ := hmatch hy t ht hsame
      exact (hfirst _ hy).2 rfl

end

/-- The imports that may name something. -/
def Considered (l : Language) (doc : Document) (t : Tree) : Prop :=
  Imports l doc t ∧ ¬NamesNothing l (doc.text t)

/-- First by the octet of the import and then by the place in the table. -/
def Earlier (x y : Tree × Nat) : Prop :=
  x.1.start < y.1.start ∨ x.1.start = y.1.start ∧ x.2 < y.2

theorem Earlier.asymm (x y : Tree × Nat) (h : Earlier x y) : ¬Earlier y x := by
  unfold Earlier at *
  omega

section

variable {l : Language} {doc other : Document} {place : Tree → Tree}

theorem Sighting.considered {category : Category} {name : String} {x : Tree × Nat}
    (h : Sighting l doc category name x) : Considered l doc x.1 := by
  refine ⟨h.imported, fun hnothing => ?_⟩
  obtain ⟨key, -, hkey⟩ := h.recognised
  exact not_recognises_of_namesNothing hnothing key hkey

theorem firstLabels_of_corresponds (category : Category)
    (h : Corresponds doc other (Considered l doc) (Considered l other) place)
    (hdistinct : DistinctStarts (Considered l doc)) :
    FirstLabels (Sighting l doc category) Earlier ((analyze l other).techStack.names category) := by
  have hforth : ∀ {name x}, Sighting l doc category name x →
      Sighting l other category name (place x.1, x.2) := by
    intro name x hx
    obtain ⟨key, hentry, hkey⟩ := hx.recognised
    exact ⟨(h.kept _ hx.considered).1, key, hentry, (h.text _ hx.considered).symm ▸ hkey⟩
  apply (firstLabels_technologies l other category).transfer
  · intro name y hy
    exact ⟨_, hforth hy⟩
  · intro name ⟨u, n⟩ hu
    obtain ⟨t, ht, rfl⟩ := h.onto u hu.considered
    obtain ⟨key, hentry, hkey⟩ := hu.recognised
    refine ⟨(t, n), ⟨ht.1, key, hentry, h.text t ht ▸ hkey⟩, fun b y _ hfirst hy => ?_⟩
    have hbefore := hfirst _ (hforth hy)
    have hplaces : (place t).start ≤ (place y.1).start := by
      rcases hbefore with hlt | ⟨heq, -⟩
      · exact Nat.le_of_lt hlt
      · exact Nat.le_of_eq heq
    have hle := (h.start_le_iff hdistinct ht hy.considered).mp hplaces
    rcases Nat.lt_or_eq_of_le hle with hlt | heq
    · exact Or.inl hlt
    · obtain rfl := hdistinct t y.1 ht hy.considered heq
      rcases hbefore with hlt | ⟨-, htable⟩
      · exact absurd hlt (Nat.lt_irrefl _)
      · exact Or.inr ⟨rfl, htable rfl⟩

theorem techStack_ext {s t : TechStack} (hnames : ∀ category, s.names category = t.names category)
    (hbuild : s.buildTools = t.buildTools) : s = t := by
  obtain ⟨_, _, _, _⟩ := s
  obtain ⟨_, _, _, _⟩ := t
  obtain rfl := hnames .framework
  obtain rfl := hnames .library
  obtain rfl := hnames .database
  obtain rfl := hbuild
  rfl

theorem techStack_eq_of_corresponds
    (h : Corresponds doc other (Considered l doc) (Considered l other) place)
    (hdistinct : DistinctStarts (Considered l doc)) :
    (analyze l other).techStack = (analyze l doc).techStack := by
  apply techStack_ext
  · intro category
    exact (firstLabels_of_corresponds category h hdistinct).unique Earlier.asymm
      (firstLabels_of_corresponds category (.refl doc _) hdistinct)
  · rw [buildTools_techStack, buildTools_techStack]

/-- What is listed in a category are the technologies that the imports match, each once and in
order. Imports that name nothing are not needed for any of them. -/
theorem technologies_in_order (l : Language) (doc : Document) :
    (∀ category, FirstLabels (Sighting l doc category) (Precedes doc)
      ((analyze l doc).techStack.names category)) ∧
    (∀ statement t, RelativeImport statement → ¬ImportedBy doc .python statement t) ∧
    (∀ text key, NamesNothing l text → ¬Recognises l key text) ∧
    (∀ other place, Corresponds doc other (Considered l doc) (Considered l other) place →
      DistinctStarts (Considered l doc) →
      (analyze l other).techStack = (analyze l doc).techStack) :=
  ⟨firstLabels_technologies l doc, fun _ t h => not_importedBy_of_relativeImport h t,
    fun _ key h => not_recognises_of_namesNothing h key,
    fun _ _ h hdistinct => techStack_eq_of_corresponds h hdistinct⟩

end

def sampleSource (start stop : Nat) : Tree :=
  .node "string" true (some "source") start stop []

def sampleImport (start stop : Nat) : Tree :=
  .node "import_statement" true none (start - 14) stop [sampleSource start stop]

/-- A script that imports a package. -/
def samplePackageImport : Document where
  source := "import a from \"react\"".toUTF8
  root := .node "program" true none 0 21 [sampleImport 14 21]

/-- The same script with an import of a file before it. -/
def sampleFileImport : Document where
  source := "import b from \"./b\"\nimport a from \"react\"".toUTF8
  root := .node "program" true none 0 41 [sampleImport 14 19, sampleImport 34 41]

def sampleRelativeImport : Tree :=
  .node "import_from_statement" true none 0 15
    [.node "relative_import" true (some "module_name") 5 6 []]

theorem imports_samplePackageImport {t : Tree} :
    Imports .typeScript samplePackageImport t ↔ t = sampleSource 14 21 := by
  have hmatches : (importQueryOf .typeScript).matches samplePackageImport =
      [[(importCapture .typeScript, sampleSource 14 21)]] := rfl
  rw [← binds_importQuery, Binds, hmatches]
  simp

theorem imports_sampleFileImport {t : Tree} : Imports .typeScript sampleFileImport t ↔
    t = sampleSource 14 19 ∨ t = sampleSource 34 41 := by
  have hmatches : (importQueryOf .typeScript).matches sampleFileImport =
      [[(importCapture .typeScript, sampleSource 14 19)],
        [(importCapture .typeScript, sampleSource 34 41)]] := rfl
  rw [← binds_importQuery, Binds, hmatches]
  simp

theorem text_samplePackageImport :
    samplePackageImport.text (sampleSource 14 21) = "\"react\"" := by
  decide +kernel

theorem text_sampleFileImport : sampleFileImport.text (sampleSource 14 19) = "\"./b\"" ∧
    sampleFileImport.text (sampleSource 34 41) = "\"react\"" := by
  decide +kernel

theorem namesNothing_file : NamesNothing .typeScript "\"./b\"" := by
  unfold NamesNothing
  decide

theorem not_namesNothing_package : ¬NamesNothing .typeScript "\"react\"" := by
  unfold NamesNothing
  decide

theorem considered_samplePackageImport (t : Tree) :
    Considered .typeScript samplePackageImport t ↔ t = sampleSource 14 21 := by
  rw [Considered, imports_samplePackageImport, and_iff_left_iff_imp]
  rintro rfl
  rw [text_samplePackageImport]
  exact not_namesNothing_package

theorem considered_sampleFileImport (t : Tree) :
    Considered .typeScript sampleFileImport t ↔ t = sampleSource 34 41 := by
  obtain ⟨hfile, hpackage⟩ := text_sampleFileImport
  rw [Considered, imports_sampleFileImport]
  constructor
  · rintro ⟨rfl | rfl, h⟩
    · exact absurd (hfile ▸ namesNothing_file) h
    · rfl
  · rintro rfl
    exact ⟨Or.inr rfl, hpackage ▸ not_namesNothing_package⟩

theorem technologies_in_order_sample :
    (analyze .typeScript sampleFileImport).techStack =
        (analyze .typeScript samplePackageImport).techStack ∧
      "React" ∈ (analyze .typeScript samplePackageImport).techStack.names .framework ∧
      ¬ImportedBy sampleFileImport .python sampleRelativeImport (sampleSource 14 19) ∧
      ¬Recognises .typeScript "react" "\"./b\"" := by
  obtain ⟨hlist, -, -, hedit⟩ := technologies_in_order .typeScript samplePackageImport
  obtain ⟨-, hrelative, hfiles, -⟩ := technologies_in_order .typeScript sampleFileImport
  refine ⟨?_, ?_, ?_, hfiles _ _ namesNothing_file⟩
  · have htext := text_sampleFileImport.2.trans text_samplePackageImport.symm
    apply hedit sampleFileImport _ (corresponds_of_only considered_samplePackageImport
      considered_sampleFileImport htext)
    exact distinctStarts_of_only considered_samplePackageImport
  · refine ((hlist .framework).exact "React").mpr ⟨(sampleSource 14 21, 0),
      imports_samplePackageImport.mpr rfl, "react", rfl, ?_⟩
    rw [text_samplePackageImport]
    decide
  · refine hrelative _ _ ⟨⟨rfl, rfl⟩, fun t ht => ?_⟩
    rw [List.mem_singleton.mp ht.1]
    exact ⟨rfl, rfl⟩

end Conventions.Analysis
