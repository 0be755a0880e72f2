import Conventions.Proofs.Analysis.Independence
import Conventions.Proofs.Analysis.Labels
import Conventions.Proofs.Analysis.Patterns

/-!
# Constructors and design patterns of a Go file

What a Go file tells about constructors, shared instances and interfaces is known from two kinds of
declarations, those of functions with their names and those of interfaces. The patterns of functions
stand in the order of the first function for each, and a function that is named for both counts as
a constructor first. The pattern of interfaces stands behind them, wherever the interfaces are.
Methods and calls are no such declarations and make no difference, nor does anything else in a file.
-/
namespace Conventions.Analysis

open Syntax

/-- What a declaration in a Go file is of. -/
inductive Go.Declared where
  | function (name : String)
  | interface

/-- The node is a declaration of this. -/
inductive Go.DeclaredBy (doc : Document) : Go.Declared → Tree → Prop
  | function {t identifier : Tree} {name : String} (ht : t ∈ doc.root.nodes)
      (hkind : t.Is "function_declaration") (hidentifier : t.Holds "name" identifier)
      (hword : identifier.Is "identifier") (htext : doc.text identifier = name) :
      DeclaredBy doc (.function name) t
  | interface {t identifier type : Tree} (ht : t ∈ doc.root.nodes) (hkind : t.Is "type_spec")
      (hidentifier : t.Holds "name" identifier) (hword : identifier.Is "type_identifier")
      (htype : t.Holds "type" type) (hinterface : type.Is "interface_type") :
      DeclaredBy doc .interface t

/-- The name begins with New and an ASCII capital. -/
def Go.NamesConstructor (name : String) : Prop :=
  ∃ capital rest, 'A' ≤ capital ∧ capital ≤ 'Z' ∧ name.toList = "New".toList ++ capital :: rest

/-- The name of a getter for a shared instance stands somewhere in the name. -/
def Go.NamesInstance (name : String) : Prop :=
  ∃ getter ∈ ["GetInstance", "GetConfig", "GetDB"], getter.toList <:+: name.toList

/-- Some function has the name of a constructor. -/
def Go.HasConstructor (doc : Document) : Prop :=
  ∃ name t, DeclaredBy doc (.function name) t ∧ NamesConstructor name

/-- The declarations that show a design pattern, by label, each with the name under which it is
captured. -/
inductive Go.Shows (doc : Document) : String → Binding → Prop
  | factory {name : String} {t : Tree} (h : DeclaredBy doc (.function name) t)
      (hname : NamesConstructor name) : Shows doc "Factory Pattern (NewXXX)" ("factory", t)
  | singleton {name : String} {t : Tree} (h : DeclaredBy doc (.function name) t)
      (hname : NamesInstance name) : Shows doc "Potential Singleton (GetInstance)" ("singleton", t)
  | strategy {t : Tree} (h : DeclaredBy doc .interface t) :
      Shows doc "Strategy Pattern (via Interfaces)" ("interface", t)

/-- Functions lead in the order of the source and by the names of captures, and all of them lead
the interfaces. -/
def Go.Leads (a b : Binding) : Prop :=
  a.1 ≠ "interface" ∧ (b.1 = "interface" ∨ Before a b)

/-- The declarations of a file are found again in another one, in their order, and it has no others.
Nothing is said of what else the files hold. -/
structure Go.Redeclares (doc other : Document) (place : Tree → Tree) : Prop where
  kept : ∀ what t, DeclaredBy doc what t → DeclaredBy other what (place t)
  onto : ∀ what u, DeclaredBy other what u → ∃ t, DeclaredBy doc what t ∧ u = place t
  ordered : ∀ a b s t, DeclaredBy doc a s → DeclaredBy doc b t →
    ((place s).start ≤ (place t).start ↔ s.start ≤ t.start)

theorem Go.isConstructorName_iff {name : String} :
    isConstructorName name.toList = true ↔ NamesConstructor name := by
  unfold isConstructorName NamesConstructor
  rw [Bool.and_eq_true, List.isPrefixOf_iff_prefix]
  constructor
  · rintro ⟨⟨more, hmore⟩, hcapital⟩
    have hdrop : name.toList.drop 3 = more := by
      rw [← hmore]
      exact List.drop_left' rfl
    rw [hdrop] at hcapital
    cases more with
    | nil => cases hcapital
    | cons capital rest =>
      obtain ⟨hlow, hhigh⟩ : 'A' ≤ capital ∧ capital ≤ 'Z' := of_decide_eq_true hcapital
      exact ⟨capital, rest, hlow, hhigh, hmore.symm⟩
  · rintro ⟨capital, rest, hlow, hhigh, hname⟩
    rw [hname]
    exact ⟨List.prefix_append _ _, decide_eq_true ⟨hlow, hhigh⟩⟩

theorem Go.isSingletonName_iff {name : String} :
    isSingletonName name.toList = true ↔ NamesInstance name := by
  simp only [isSingletonName, NamesInstance, List.any_eq_true, Text.occurs_iff]

section

variable {doc other : Document} {place : Tree → Tree}

/-- A function with some name, in the terms of the tree. -/
theorem Go.exists_declaredBy {P : String → Prop} {t : Tree} :
    (∃ name, DeclaredBy doc (.function name) t ∧ P name) ↔
      t ∈ doc.root.nodes ∧ ∃ identifier, (t.Is "function_declaration" ∧
        t.Holds "name" identifier ∧ identifier.Is "identifier") ∧ P (doc.text identifier) := by
  constructor
  · rintro ⟨_, ⟨ht, hkind, hidentifier, hword, rfl⟩, hname⟩
    exact ⟨ht, _, ⟨hkind, hidentifier, hword⟩, hname⟩
  · rintro ⟨ht, identifier, ⟨hkind, hidentifier, hword⟩, hname⟩
    exact ⟨_, .function ht hkind hidentifier hword rfl, hname⟩

theorem Go.binds_factory {t : Tree} : Binds doc constructorQuery "factory" t ↔
    ∃ name, DeclaredBy doc (.function name) t ∧ NamesConstructor name := by
  rw [exists_declaredBy]
  simp [binds_iff, constructorQuery, isConstructorName_iff]

theorem Go.binds_singleton {t : Tree} : Binds doc constructorQuery "singleton" t ↔
    ∃ name, DeclaredBy doc (.function name) t ∧ NamesInstance name := by
  rw [exists_declaredBy]
  simp [binds_iff, constructorQuery, isSingletonName_iff]

/-- Where a constructor is declared, its name is captured. -/
theorem Go.captures_factoryName :
    Captures doc constructorQuery "factory.name" ↔ HasConstructor doc := by
  rw [captures_iff, HasConstructor, exists_comm]
  simp only [exists_declaredBy]
  simp [binds_iff, constructorQuery, isConstructorName_iff]
  rw [exists_comm]
  simp only [exists_and_left]

/-- Where an interface is declared, its name is captured. -/
theorem Go.captures_interfaceName :
    Captures doc interfaceQuery "interface.name" ↔ ∃ t, DeclaredBy doc .interface t := by
  rw [captures_iff]
  simp only [binds_iff]
  constructor
  · intro ⟨u, h⟩
    simp [interfaceQuery] at h
    obtain ⟨t, ht, hkind, hidentifier, hword, type, htype, hinterface⟩ := h
    exact ⟨t, .interface ht hkind hidentifier hword htype hinterface⟩
  · intro ⟨t, h⟩
    cases h with
    | @interface _ identifier type ht hkind hidentifier hword htype hinterface =>
    refine ⟨identifier, ?_⟩
    simp [interfaceQuery]
    exact ⟨t, ht, hkind, hidentifier, hword, type, htype, hinterface⟩

/-- Labels and captures tell interfaces from functions alike. -/
theorem Go.Shows.interface_iff {label : String} {b : Binding} (h : Shows doc label b) :
    b.1 = "interface" ↔ label = strategyLabel := by
  cases h <;> simp [strategyLabel]

theorem Go.Shows.tableLabel?_eq {label : String} {b : Binding} (h : Shows doc label b)
    (hfunction : b.1 ≠ "interface") : tableLabel? patternLabels b = some label := by
  cases h with
  | factory => rfl
  | singleton => rfl
  | strategy => exact absurd rfl hfunction

theorem Go.Shows.interface {label : String} {b : Binding} (h : Shows doc label b)
    (hlabel : label = strategyLabel) : DeclaredBy doc .interface b.2 := by
  cases h with
  | factory => simp [strategyLabel] at hlabel
  | singleton => simp [strategyLabel] at hlabel
  | strategy h => exact h

theorem Go.injectionPatterns_analyze (doc : Document) :
    HasConstructor doc ∧ (analyze .go doc).injection.patterns = ["Constructor Injection (NewXXX)"] ∨
      ¬HasConstructor doc ∧ (analyze .go doc).injection.patterns = [] := by
  have hpass : (FindingsPart.injection, injectionPass) ∈ partedPasses .go := by
    simp [partedPasses]
  have hpart : (analyze .go doc).injection = (injectionPass doc {}).injection :=
    partOf_analyze hpass doc
  rw [hpart, injectionPass, ← captures_factoryName]
  by_cases h : Captures doc constructorQuery "factory.name"
  · have hcaptured : capturedTexts doc constructorQuery "factory.name" ≠ [] :=
      fun hnone => capturedTexts_eq_nil.mp hnone h
    left
    rw [if_neg (by simpa using hcaptured)]
    exact ⟨h, rfl⟩
  · right
    rw [if_pos (List.isEmpty_iff.mpr (capturedTexts_eq_nil.mpr h))]
    exact ⟨h, rfl⟩

/-- The patterns of functions, from the captures of constructors and getters. -/
theorem Go.firstLabels_functions (doc : Document) :
    FirstLabels (fun label b => Shows doc label b ∧ b.1 ≠ "interface") Leads
      (addAll [] ((captured doc constructorQuery).filterMap (tableLabel? patternLabels))) := by
  have hfirst : FirstLabels (fun label b => Shows doc label b ∧ b.1 ≠ "interface") Before
      (addAll [] ((captured doc constructorQuery).filterMap (tableLabel? patternLabels))) := by
    apply firstLabels_captured
    · intro label ⟨capture, t⟩ hbinds hlabel
      have hentry : (capture, label) ∈ patternLabels := mem_of_tableLabel? hlabel
      simp only [patternLabels, List.mem_cons, List.not_mem_nil, or_false] at hentry
      rcases hentry with heq | heq
      · cases heq
        obtain ⟨name, h, hname⟩ := binds_factory.mp hbinds
        exact ⟨.factory h hname, by simp⟩
      · cases heq
        obtain ⟨name, h, hname⟩ := binds_singleton.mp hbinds
        exact ⟨.singleton h hname, by simp⟩
    · rintro label b ⟨hb, hfunction⟩
      refine ⟨?_, fun _ _ => hb.tableLabel?_eq hfunction⟩
      cases hb with
      | factory h hname => exact binds_factory.mpr ⟨_, h, hname⟩
      | singleton h hname => exact binds_singleton.mpr ⟨_, h, hname⟩
      | strategy h => exact absurd rfl hfunction
    · rintro a b x y ⟨hx, hfunction⟩ ⟨hy, hfunction'⟩ _ hname
      have hlabel : tableLabel? patternLabels x = tableLabel? patternLabels y := by
        rw [tableLabel?, tableLabel?, hname]
      rw [hx.tableLabel?_eq hfunction, hy.tableLabel?_eq hfunction'] at hlabel
      exact Option.some.inj hlabel
  exact hfirst.mono fun _ _ x y hx _ hbefore => ⟨hx.2, Or.inr hbefore⟩

/-- The pattern of interfaces, listed if one is declared. -/
theorem Go.firstLabels_interfaces (doc : Document) :
    FirstLabels (fun label b => Shows doc label b ∧ b.1 = "interface") Leads
      (if (interfaceNames doc).isEmpty then [] else [strategyLabel]) := by
  have hdeclared : (interfaceNames doc).isEmpty = true ↔ ¬∃ t, DeclaredBy doc .interface t := by
    rw [← captures_interfaceName, ← capturedTexts_eq_nil, List.isEmpty_iff, interfaceNames]
  have hshows : ∀ label, (∃ b, Shows doc label b ∧ b.1 = "interface") ↔
      label = strategyLabel ∧ ∃ t, DeclaredBy doc .interface t := by
    intro label
    constructor
    · rintro ⟨b, hb, hname⟩
      have hlabel := hb.interface_iff.mp hname
      exact ⟨hlabel, _, hb.interface hlabel⟩
    · rintro ⟨rfl, t, h⟩
      exact ⟨_, .strategy h, rfl⟩
  split
  next hnone =>
    refine ⟨fun label => ?_, List.nodup_nil, List.Pairwise.nil⟩
    rw [hshows]
    exact iff_of_false List.not_mem_nil fun h => hdeclared.mp hnone h.2
  next hsome =>
    rw [hdeclared, not_not] at hsome
    refine ⟨fun label => ?_, List.nodup_singleton _, List.pairwise_singleton _ _⟩
    rw [hshows, List.mem_singleton, and_iff_left hsome]

theorem Go.designPatterns_analyze (doc : Document) : (analyze .go doc).designPatterns =
    addAll [] ((captured doc constructorQuery).filterMap (tableLabel? patternLabels)) ++
      if (interfaceNames doc).isEmpty then [] else [strategyLabel] := by
  have hpass : (FindingsPart.designPatterns, designPatternPass) ∈ partedPasses .go := by
    simp [partedPasses]
  have hpart : (analyze .go doc).designPatterns = (designPatternPass doc {}).designPatterns :=
    partOf_analyze hpass doc
  have hnew : strategyLabel ∉
      addAll [] ((captured doc constructorQuery).filterMap (tableLabel? patternLabels)) := by
    rw [(firstLabels_functions doc).exact]
    rintro ⟨b, hb, hfunction⟩
    exact hfunction (hb.interface_iff.mpr rfl)
  rw [hpart, designPatternPass]
  dsimp only
  rw [foldl_addLabel]
  split
  · exact (List.append_nil _).symm
  · exact if_neg hnew

theorem Go.firstLabels_designPatterns (doc : Document) :
    FirstLabels (Shows doc) Leads (analyze .go doc).designPatterns := by
  rw [designPatterns_analyze]
  apply (firstLabels_functions doc).append (firstLabels_interfaces doc)
  · intro label b
    rw [← and_or_left, and_iff_left (ne_or_eq b.1 "interface")]
  · rintro label x y ⟨hx, hfunction⟩ ⟨hy, hinterface⟩
    exact hfunction (hx.interface_iff.mpr (hy.interface_iff.mp hinterface))
  · rintro a b x y ⟨-, hfunction⟩ ⟨-, hinterface⟩
    exact ⟨hfunction, Or.inl hinterface⟩

theorem Go.mem_injectionPatterns :
    constructorInjectionLabel ∈ (analyze .go doc).injection.patterns ↔ HasConstructor doc := by
  rcases injectionPatterns_analyze doc with ⟨hsome, hlist⟩ | ⟨hnone, hlist⟩
  · rw [hlist]
    exact iff_of_true (List.mem_singleton_self _) hsome
  · rw [hlist]
    exact iff_of_false List.not_mem_nil hnone

theorem Go.factoryLabel_mem :
    factoryLabel ∈ (analyze .go doc).designPatterns ↔ HasConstructor doc := by
  rw [(firstLabels_designPatterns doc).exact]
  constructor
  · rintro ⟨b, hb⟩
    generalize hlabel : factoryLabel = label at hb
    cases hb with
    | factory h hname => exact ⟨_, _, h, hname⟩
    | singleton => simp [factoryLabel] at hlabel
    | strategy => simp [factoryLabel] at hlabel
  · rintro ⟨name, t, h, hname⟩
    exact ⟨_, .factory h hname⟩

theorem Go.strategyLabel_mem :
    strategyLabel ∈ (analyze .go doc).designPatterns ↔ ∃ t, DeclaredBy doc .interface t := by
  rw [(firstLabels_designPatterns doc).exact]
  constructor
  · rintro ⟨b, hb⟩
    exact ⟨_, hb.interface rfl⟩
  · rintro ⟨t, h⟩
    exact ⟨_, .strategy h⟩

theorem Go.Leads.asymm {a b : Binding} (h : Leads a b) : ¬Leads b a := by
  rintro ⟨hb, hba⟩
  have hab := h.2.resolve_left hb
  have hba := hba.resolve_left h.1
  rcases hab with hab | ⟨hstart, hab⟩ <;> rcases hba with hba | ⟨hstart', hba⟩
  · omega
  · omega
  · omega
  · exact String.lt_irrefl a.1 (String.lt_trans hab hba)

theorem Go.Shows.declared {label : String} {b : Binding} (h : Shows doc label b) :
    ∃ what, DeclaredBy doc what b.2 := by
  cases h with
  | factory h => exact ⟨_, h⟩
  | singleton h => exact ⟨_, h⟩
  | strategy h => exact ⟨_, h⟩

theorem Go.Redeclares.hasConstructor_iff (h : Redeclares doc other place) :
    HasConstructor other ↔ HasConstructor doc := by
  constructor
  · rintro ⟨name, u, hu, hname⟩
    obtain ⟨t, ht, -⟩ := h.onto _ u hu
    exact ⟨name, t, ht, hname⟩
  · rintro ⟨name, t, ht, hname⟩
    exact ⟨name, place t, h.kept _ t ht, hname⟩

theorem Go.Redeclares.shows (h : Redeclares doc other place) {label capture : String} {t : Tree}
    (ht : Shows doc label (capture, t)) : Shows other label (capture, place t) := by
  cases ht with
  | factory ht hname => exact .factory (h.kept _ t ht) hname
  | singleton ht hname => exact .singleton (h.kept _ t ht) hname
  | strategy ht => exact .strategy (h.kept _ t ht)

theorem Go.Redeclares.exists_shows (h : Redeclares doc other place) {label capture : String}
    {u : Tree} (hu : Shows other label (capture, u)) :
    ∃ t, Shows doc label (capture, t) ∧ u = place t := by
  cases hu with
  | factory hu hname =>
    obtain ⟨t, ht, rfl⟩ := h.onto _ u hu
    exact ⟨t, .factory ht hname, rfl⟩
  | singleton hu hname =>
    obtain ⟨t, ht, rfl⟩ := h.onto _ u hu
    exact ⟨t, .singleton ht hname, rfl⟩
  | strategy hu =>
    obtain ⟨t, ht, rfl⟩ := h.onto _ u hu
    exact ⟨t, .strategy ht, rfl⟩

theorem Go.Redeclares.leads (h : Redeclares doc other place) {a b x y : String} {s t : Tree}
    (hs : Shows doc x (a, s)) (ht : Shows doc y (b, t)) (hleads : Leads (a, s) (b, t)) :
    Leads (a, place s) (b, place t) := by
  obtain ⟨p, hp⟩ := hs.declared
  obtain ⟨q, hq⟩ := ht.declared
  have hle := h.ordered p q s t hp hq
  have hge := h.ordered q p t s hq hp
  refine ⟨hleads.1, hleads.2.imp id ?_⟩
  rintro (hlt | ⟨heq, hnames⟩)
  · left
    show (place s).start < (place t).start
    have hlt : s.start < t.start := hlt
    omega
  · right
    have heq : s.start = t.start := heq
    exact ⟨Nat.le_antisymm (hle.mpr heq.le) (hge.mpr heq.ge), hnames⟩

/-- The list of a file has the labels of the other one in their order. -/
theorem Go.Redeclares.firstLabels (h : Redeclares doc other place) :
    FirstLabels (Shows other) Leads (analyze .go doc).designPatterns := by
  apply (firstLabels_designPatterns doc).transfer
  · rintro label ⟨capture, u⟩ hu
    obtain ⟨t, ht, -⟩ := h.exists_shows hu
    exact ⟨_, ht⟩
  · rintro label ⟨capture, t⟩ ht
    refine ⟨(capture, place t), h.shows ht, ?_⟩
    rintro b ⟨_, u⟩ - hfirst hu
    obtain ⟨s, hs, rfl⟩ := h.exists_shows hu
    exact h.leads ht hs (hfirst _ hs)

end

/-- The injection of constructors is listed if and only if a constructor is declared. The design
patterns are those that declarations show, each once and in their order. They are the same in every
file with the same declarations. -/
theorem Go.idioms_of_declarations (doc : Document) :
    (HasConstructor doc ∧
        (analyze .go doc).injection.patterns = ["Constructor Injection (NewXXX)"] ∨
      ¬HasConstructor doc ∧ (analyze .go doc).injection.patterns = []) ∧
    FirstLabels (Shows doc) Leads (analyze .go doc).designPatterns ∧
    (∀ other place, Redeclares doc other place →
      (analyze .go other).injection.patterns = (analyze .go doc).injection.patterns ∧
      (analyze .go other).designPatterns = (analyze .go doc).designPatterns) := by
  refine ⟨injectionPatterns_analyze doc, firstLabels_designPatterns doc, fun other place h => ?_⟩
  constructor
  · have hiff := h.hasConstructor_iff
    rcases injectionPatterns_analyze other with ⟨hsome, hother⟩ | ⟨hnone, hother⟩
    · have hlist := (injectionPatterns_analyze doc).resolve_right fun hn => hn.1 (hiff.mp hsome)
      rw [hother, hlist.2]
    · have hlist := (injectionPatterns_analyze doc).resolve_left fun hs => hnone (hiff.mpr hs.1)
      rw [hother, hlist.2]
  · exact (firstLabels_designPatterns other).unique (fun _ _ => Leads.asymm) h.firstLabels

def sampleGetterName (start : Nat) : Tree :=
  .node "identifier" true (some "name") (start + 5) (start + 13) []

/-- A function whose name is of both sorts. -/
def sampleGetter (start : Nat) : Tree :=
  .node "function_declaration" true none start (start + 18) [sampleGetterName start]

def sampleReader : Tree :=
  .node "type_spec" true none 5 18
    [.node "type_identifier" true (some "name") 5 6 [],
      .node "interface_type" true (some "type") 7 18 []]

/-- A method that is named like a constructor and calls a getter. -/
def sampleMethod : Tree :=
  .node "method_declaration" true none 19 55
    [.node "field_identifier" true (some "name") 31 35 [],
      .node "call_expression" true none 40 53
        [.node "identifier" true (some "function") 40 51 []]]

/-- A Go file with an interface and the function. -/
def sampleIdioms : Document where
  source := "type R interface{}\nfunc NewGetDB() {}".toUTF8
  root := .node "source_file" true none 0 37
    [.node "type_declaration" true none 0 18 [sampleReader], sampleGetter 19]

/-- The same file with the method between the two. -/
def sampleMoreIdioms : Document where
  source := "type R interface{}\nfunc (s *S) NewS() { GetInstance() }\nfunc NewGetDB() {}".toUTF8
  root := .node "source_file" true none 0 74
    [.node "type_declaration" true none 0 18 [sampleReader], sampleMethod, sampleGetter 56]

/-- A file whose only function and only type are those two. -/
theorem Go.declaredBy_of_only {doc : Document} {start : Nat}
    (hmem : sampleGetter start ∈ doc.root.nodes ∧ sampleReader ∈ doc.root.nodes)
    (honly : ∀ t ∈ doc.root.nodes, (t.Is "function_declaration" → t = sampleGetter start) ∧
      (t.Is "type_spec" → t = sampleReader))
    (htext : doc.text (sampleGetterName start) = "NewGetDB") {what : Declared} {t : Tree} :
    DeclaredBy doc what t ↔ what = .function "NewGetDB" ∧ t = sampleGetter start ∨
      what = .interface ∧ t = sampleReader := by
  constructor
  · intro h
    cases h with
    | function ht hkind hidentifier _ hname =>
      obtain rfl := (honly t ht).1 hkind
      obtain rfl := List.mem_singleton.mp hidentifier.1
      rw [htext] at hname
      exact Or.inl ⟨by rw [hname], rfl⟩
    | interface ht hkind => exact Or.inr ⟨rfl, (honly t ht).2 hkind⟩
  · rintro (⟨rfl, rfl⟩ | ⟨rfl, rfl⟩)
    · exact .function hmem.1 ⟨rfl, rfl⟩ ⟨List.mem_singleton_self _, rfl⟩ ⟨rfl, rfl⟩ htext
    · exact .interface hmem.2 ⟨rfl, rfl⟩ ⟨List.mem_cons_self, rfl⟩ ⟨rfl, rfl⟩
        ⟨List.mem_cons_of_mem _ (List.mem_singleton_self _), rfl⟩ ⟨rfl, rfl⟩

theorem Go.declaredBy_sampleIdioms {what : Declared} {t : Tree} :
    DeclaredBy sampleIdioms what t ↔ what = .function "NewGetDB" ∧ t = sampleGetter 19 ∨
      what = .interface ∧ t = sampleReader := by
  apply declaredBy_of_only
  · simp [sampleIdioms, Tree.nodes, Tree.nodesOfAll, sampleReader, sampleGetter]
  · simp [sampleIdioms, Tree.nodes, Tree.nodesOfAll, sampleReader, sampleGetter, sampleGetterName,
      Tree.Is, Tree.named, Tree.kind]
  · decide +kernel

theorem Go.declaredBy_sampleMoreIdioms {what : Declared} {t : Tree} :
    DeclaredBy sampleMoreIdioms what t ↔ what = .function "NewGetDB" ∧ t = sampleGetter 56 ∨
      what = .interface ∧ t = sampleReader := by
  apply declaredBy_of_only
  · simp [sampleMoreIdioms, Tree.nodes, Tree.nodesOfAll, sampleReader, sampleMethod, sampleGetter]
  · simp [sampleMoreIdioms, Tree.nodes, Tree.nodesOfAll, sampleReader, sampleMethod, sampleGetter,
      sampleGetterName, Tree.Is, Tree.named, Tree.kind]
  · decide +kernel

/-- The function moves, and the interface stays. -/
theorem Go.redeclares_sampleMoreIdioms : Redeclares sampleIdioms sampleMoreIdioms
    fun t => if t.start = 19 then sampleGetter 56 else t := by
  constructor
  · intro what t
    rw [declaredBy_sampleIdioms, declaredBy_sampleMoreIdioms]
    rintro (⟨rfl, rfl⟩ | ⟨rfl, rfl⟩)
    · exact Or.inl ⟨rfl, rfl⟩
    · exact Or.inr ⟨rfl, rfl⟩
  · intro what u
    simp only [declaredBy_sampleIdioms, declaredBy_sampleMoreIdioms]
    rintro (⟨rfl, rfl⟩ | ⟨rfl, rfl⟩)
    · exact ⟨sampleGetter 19, Or.inl ⟨rfl, rfl⟩, rfl⟩
    · exact ⟨sampleReader, Or.inr ⟨rfl, rfl⟩, rfl⟩
  · intro a b s t
    simp only [declaredBy_sampleIdioms]
    rintro (⟨-, rfl⟩ | ⟨-, rfl⟩) (⟨-, rfl⟩ | ⟨-, rfl⟩) <;> decide

/-- The method makes no difference, and all three patterns are listed. -/
theorem Go.idioms_of_declarations_sample :
    (analyze .go sampleMoreIdioms).designPatterns = (analyze .go sampleIdioms).designPatterns ∧
      (analyze .go sampleMoreIdioms).injection.patterns = ["Constructor Injection (NewXXX)"] ∧
      "Factory Pattern (NewXXX)" ∈ (analyze .go sampleIdioms).designPatterns ∧
      "Potential Singleton (GetInstance)" ∈ (analyze .go sampleIdioms).designPatterns ∧
      "Strategy Pattern (via Interfaces)" ∈ (analyze .go sampleIdioms).designPatterns := by
  obtain ⟨hinjection, hlist, hedit⟩ := idioms_of_declarations sampleIdioms
  obtain ⟨hsame, hpatterns⟩ := hedit _ _ redeclares_sampleMoreIdioms
  have hfunction : DeclaredBy sampleIdioms (.function "NewGetDB") (sampleGetter 19) :=
    declaredBy_sampleIdioms.mpr (Or.inl ⟨rfl, rfl⟩)
  have hinterface : DeclaredBy sampleIdioms .interface sampleReader :=
    declaredBy_sampleIdioms.mpr (Or.inr ⟨rfl, rfl⟩)
  have hconstructor : NamesConstructor "NewGetDB" := isConstructorName_iff.mp (by decide)
  have hinstance : NamesInstance "NewGetDB" := isSingletonName_iff.mp (by decide)
  have hlisted := hinjection.resolve_right fun hnone => hnone.1 ⟨_, _, hfunction, hconstructor⟩
  exact ⟨hpatterns, hsame.trans hlisted.2, (hlist.exact _).mpr ⟨_, .factory hfunction hconstructor⟩,
    (hlist.exact _).mpr ⟨_, .singleton hfunction hinstance⟩,
    (hlist.exact _).mpr ⟨_, .strategy hinterface⟩⟩

end Conventions.Analysis
