import Conventions.Proofs.Analysis.Independence
import Conventions.Proofs.Analysis.Patterns

/-!
# The first declared name decides

On each axis the casing of a file is that of one name, the earliest that is declared there, whether
it fits a style or not. What is declared is said here by the nodes of the tree: a declaration of
some kind holds the name in some field. Where in the tree a declaration stands and which rule of
the query finds it make no difference, and nor do the names on the other axes.

Nodes that start at one octet are told apart by nothing but the order of the search. The names that
a grammar gives are leaves that are not empty, so no two of them start at one octet.
-/
namespace Conventions

/-- What a name may stand for. -/
inductive Axis where
  | functionName
  | typeName
  | variableName
  deriving DecidableEq, Repr

namespace Axis

/-- The word for an axis, with which its captures begin. -/
def word : Axis → String
  | functionName => "function"
  | typeName => "type"
  | variableName => "variable"

/-- The capture of the names on an axis. -/
def capture (axis : Axis) : String := axis.word ++ ".name"

theorem capture_inj {a b : Axis} : a.capture = b.capture ↔ a = b := by
  cases a <;> cases b <;> decide

theorem upTo_capture (axis : Axis) : Text.upTo '.' axis.capture = axis.word := by
  cases axis <;> decide

end Axis

/-- The casing recorded on an axis. -/
def Naming.casing (n : Naming) : Axis → Option Casing
  | .functionName => n.functionNames
  | .typeName => n.typeNames
  | .variableName => n.variableNames

namespace Analysis

open Syntax

/-- A kind of declaration with the field that holds the declared name and the kind of that name. -/
structure Declaration where
  axis : Axis
  kind : String
  field : String
  nameKind : String

/-- The declarations of a language that hold their name themselves. -/
def declarationsOf : Language → List Declaration
  | .go =>
    [⟨.functionName, "function_declaration", "name", "identifier"⟩,
      ⟨.functionName, "method_declaration", "name", "field_identifier"⟩,
      ⟨.typeName, "type_spec", "name", "type_identifier"⟩,
      ⟨.variableName, "var_spec", "name", "identifier"⟩]
  | .python =>
    [⟨.functionName, "function_definition", "name", "identifier"⟩,
      ⟨.typeName, "class_definition", "name", "identifier"⟩,
      ⟨.variableName, "assignment", "left", "identifier"⟩]
  | .typeScript | .javaScript =>
    [⟨.functionName, "function_declaration", "name", "identifier"⟩,
      ⟨.functionName, "method_definition", "name", "property_identifier"⟩,
      ⟨.typeName, "class_declaration", "name", "type_identifier"⟩,
      ⟨.variableName, "variable_declarator", "name", "identifier"⟩]
  | .rust =>
    [⟨.functionName, "function_item", "name", "identifier"⟩,
      ⟨.typeName, "struct_item", "name", "type_identifier"⟩,
      ⟨.typeName, "enum_item", "name", "type_identifier"⟩,
      ⟨.variableName, "let_declaration", "pattern", "identifier"⟩]

/-- The node is a name that is declared on the axis. -/
inductive Declares (l : Language) (doc : Document) (axis : Axis) : Tree → Prop
  | held {d : Declaration} {declaration name : Tree} (hd : d ∈ declarationsOf l)
      (haxis : d.axis = axis) (hnode : declaration ∈ doc.root.nodes)
      (hkind : declaration.Is d.kind) (hname : declaration.Holds d.field name)
      (hnameKind : name.Is d.nameKind) : Declares l doc axis name
  | assigned {declaration targets name : Tree} (hl : l = .go) (haxis : axis = .variableName)
      (hnode : declaration ∈ doc.root.nodes) (hkind : declaration.Is "short_var_declaration")
      (htargets : declaration.Holds "left" targets) (hlist : targets.Is "expression_list")
      (hname : name ∈ targets.children) (hnameKind : name.Is "identifier") :
      Declares l doc axis name

def namingQueryOf : Language → Query
  | .go => Go.namingQuery
  | .python => Python.namingQuery
  | .typeScript | .javaScript => Script.namingQuery
  | .rust => Rust.namingQuery

/-- The rule for variables that are declared by assigning to a list of targets. -/
def assignedRules : Language → List Rule
  | .go =>
    [rule (shape "short_var_declaration" [field "left"
      (shape "expression_list" [child (leaf "identifier" Axis.variableName.capture)])])]
  | _ => []

theorem namingQueryOf_eq (l : Language) : namingQueryOf l =
    (declarationsOf l).map (fun d => declaredName d.kind d.field d.nameKind d.axis.word) ++
      assignedRules l := by
  cases l <;> rfl

theorem binds_namingQuery {l : Language} {doc : Document} {name : String} {t : Tree} :
    Binds doc (namingQueryOf l) name t ↔
      ∃ axis, name = Axis.capture axis ∧ Declares l doc axis t := by
  rw [binds_iff, namingQueryOf_eq]
  constructor
  · intro h
    obtain ⟨rule, hrule, r, hr, m, hm, ht⟩ := h
    rcases List.mem_append.mp hrule with hrule | hrule
    · obtain ⟨d, hd, rfl⟩ := List.mem_map.mp hrule
      obtain ⟨hkind, u, hu, hnameKind, rfl⟩ := mem_matchesAt_declaredName.mp hm
      obtain ⟨rfl, rfl⟩ := Prod.mk.inj (List.mem_singleton.mp ht)
      exact ⟨d.axis, rfl, .held hd rfl hr hkind hu hnameKind⟩
    · cases l with
      | go =>
        obtain rfl := List.mem_singleton.mp hrule
        simp only [mem_matchesAt_rule, mem_matches_shape, mem_childMatches_field,
          mem_childMatches_child, mem_childMatches_nil, mem_matches_leaf] at hm
        obtain ⟨hkind, targets, htargets, _, ⟨hlist, u, hu, _, ⟨hnameKind, rfl⟩, _, rfl, rfl⟩,
          _, rfl, rfl⟩ := hm
        obtain ⟨rfl, rfl⟩ := Prod.mk.inj (List.mem_singleton.mp ht)
        exact ⟨.variableName, rfl, .assigned rfl rfl hr hkind htargets hlist hu hnameKind⟩
      | _ => cases hrule
  · intro h
    obtain ⟨axis, haxis, h⟩ := h
    cases h with
    | @held d declaration _ hd hda hnode hkind hname hnameKind =>
      refine ⟨_, List.mem_append_left _ (List.mem_map_of_mem hd), declaration, hnode, _,
        mem_matchesAt_declaredName.mpr ⟨hkind, t, hname, hnameKind, rfl⟩, ?_⟩
      rw [hda, haxis]
      exact List.mem_singleton_self _
    | @assigned declaration targets _ hl hda hnode hkind htargets hlist hname hnameKind =>
      subst hl
      subst hda
      refine ⟨_, List.mem_append_right _ (List.mem_singleton_self _), declaration, hnode,
        [(Axis.variableName.capture, t)], ?_, by simp [haxis]⟩
      simp only [mem_matchesAt_rule, mem_matches_shape, mem_childMatches_field,
        mem_childMatches_child, mem_childMatches_nil, mem_matches_leaf]
      exact ⟨hkind, targets, htargets, _, ⟨hlist, t, hname, _, ⟨hnameKind, rfl⟩, _, rfl, rfl⟩,
        _, rfl, rfl⟩

theorem binds_capture_iff {l : Language} {doc : Document} {axis : Axis} {t : Tree} :
    Binds doc (namingQueryOf l) axis.capture t ↔ Declares l doc axis t := by
  rw [binds_namingQuery]
  constructor
  · intro ⟨other, hother, h⟩
    exact Axis.capture_inj.mp hother ▸ h
  · intro h
    exact ⟨axis, rfl, h⟩

theorem casing_recordCasing (n : Naming) (a axis : Axis) (c : Casing) :
    (recordCasing n a.word c).casing axis =
      if a = axis then setOnce (n.casing axis) c else n.casing axis := by
  cases a <;> cases axis <;> rfl

/-- On each axis the first capture decides, unless a casing is there already. -/
theorem casing_foldl_recordCasing (doc : Document) (axis : Axis) {bindings : List Binding}
    (h : ∀ b ∈ bindings, ∃ a, b.1 = Axis.capture a) (n : Naming) :
    (bindings.foldl
        (fun n b => recordCasing n (Text.upTo '.' b.1) (Casing.classify (doc.text b.2)))
        n).casing axis =
      (n.casing axis).or ((bindings.find? fun b => b.1 == axis.capture).map fun b =>
        Casing.classify (doc.text b.2)) := by
  induction bindings generalizing n with
  | nil => simp
  | cons b bindings ih =>
    obtain ⟨⟨a, ha⟩, hrest⟩ := List.forall_mem_cons.mp h
    rw [List.foldl_cons, ih hrest, ha, Axis.upTo_capture, casing_recordCasing]
    by_cases haxis : a = axis
    · subst haxis
      rw [if_pos rfl, List.find?_cons_of_pos (by rw [ha]; exact beq_self_eq_true _)]
      cases n.casing a <;> rfl
    · have hne : ¬(b.1 == axis.capture) = true := by
        rw [ha, beq_iff_eq, Axis.capture_inj]
        exact haxis
      rw [if_neg haxis, List.find?_cons_of_neg (by exact hne)]

theorem casing_analyze (l : Language) (doc : Document) (axis : Axis) :
    (analyze l doc).naming.casing axis =
      (capturedNodes doc (namingQueryOf l) axis.capture).head?.map fun t =>
        Casing.classify (doc.text t) := by
  have hpass : (FindingsPart.names, namingPass (namingQueryOf l)) ∈ partedPasses l := by
    cases l <;> exact List.mem_cons_self
  have hpart : withoutPrefix (analyze l doc).naming =
      withoutPrefix (namingPass (namingQueryOf l) doc {}).naming := partOf_analyze hpass doc
  have hcasing : ∀ n, (withoutPrefix n).casing axis = n.casing axis := by
    intro n
    cases axis <;> rfl
  have hnames : ∀ b ∈ captured doc (namingQueryOf l), ∃ a, b.1 = Axis.capture a := by
    intro b hb
    obtain ⟨a, ha, -⟩ := binds_namingQuery.mp (binds_of_mem_captured hb)
    exact ⟨a, ha⟩
  have hnone : ({} : Naming).casing axis = none := by cases axis <;> rfl
  rw [← hcasing, hpart, hcasing]
  show (List.foldl _ ({} : Naming) _).casing axis = _
  rw [casing_foldl_recordCasing doc axis hnames, hnone, Option.none_or, capturedNodes,
    List.head?_map, List.head?_filter, Option.map_map]
  rfl

section

variable {l : Language} {doc other : Document} {axis : Axis}

theorem casing_eq_none_iff :
    (analyze l doc).naming.casing axis = none ↔ ¬∃ t, Declares l doc axis t := by
  rw [casing_analyze, Option.map_eq_none_iff, List.head?_eq_none_iff]
  constructor
  · intro hnil ⟨t, ht⟩
    obtain ⟨u, hu, -⟩ := (binds_capture_iff.mpr ht).exists_node
    rw [hnil] at hu
    cases hu
  · intro hnone
    apply List.eq_nil_iff_forall_not_mem.mpr
    intro t ht
    exact hnone ⟨t, binds_capture_iff.mp (binds_of_mem_captured (mem_capturedNodes.mp ht))⟩

/-- Whatever casing is recorded, it is that of an earliest name. -/
theorem exists_earliest_of_casing {c : Casing}
    (h : (analyze l doc).naming.casing axis = some c) :
    ∃ t, Earliest (Declares l doc axis) t ∧ c = Casing.classify (doc.text t) := by
  rw [casing_analyze, Option.map_eq_some_iff] at h
  obtain ⟨t, hhead, hc⟩ := h
  obtain ⟨rest, hnodes⟩ := List.head?_eq_some_iff.mp hhead
  have hfirst : (capturedNodes doc (namingQueryOf l) axis.capture).find? (fun _ => true) = some t :=
    hnodes ▸ List.find?_cons_of_pos rfl
  refine ⟨t, earliest_of_find? hfirst (pairwise_capturedNodes ..) ?_ ?_, hc.symm⟩
  · intro u hu _
    exact binds_capture_iff.mp (binds_of_mem_captured (mem_capturedNodes.mp hu))
  · intro u hu
    obtain ⟨v, hv, hstart, -⟩ := (binds_capture_iff.mpr hu).exists_node
    exact ⟨v, hv, rfl, hstart⟩

theorem casing_eq_some_iff (hdistinct : DistinctStarts (Declares l doc axis)) {c : Casing} :
    (analyze l doc).naming.casing axis = some c ↔
      ∃ t, Earliest (Declares l doc axis) t ∧ c = Casing.classify (doc.text t) := by
  refine ⟨exists_earliest_of_casing, fun ⟨t, ht, hc⟩ => ?_⟩
  obtain ⟨c', hc'⟩ := Option.ne_none_iff_exists'.mp fun hnone =>
    casing_eq_none_iff.mp hnone ⟨t, ht.1⟩
  obtain ⟨u, hu, hcu⟩ := exists_earliest_of_casing hc'
  rw [hc', hcu, hc, hu.unique hdistinct ht]

/-- Names that begin after one that was there before do not change the casing. -/
theorem casing_of_carries {place : Tree → Tree} (hdistinct : DistinctStarts (Declares l doc axis))
    (h : Carries doc other (Declares l doc axis) (Declares l other axis) place)
    (hadded : ∀ u, Declares l other axis u → (∃ t, Declares l doc axis t ∧ u = place t) ∨
      ∃ t, Declares l doc axis t ∧ (place t).start < u.start) :
    (analyze l other).naming.casing axis = (analyze l doc).naming.casing axis := by
  cases hcasing : (analyze l other).naming.casing axis with
  | none =>
    apply Eq.symm
    rw [casing_eq_none_iff] at hcasing ⊢
    exact fun ⟨t, ht⟩ => hcasing ⟨place t, h.kept t ht⟩
  | some c =>
    obtain ⟨u, hu, hc⟩ := exists_earliest_of_casing hcasing
    obtain ⟨t, ht, rfl⟩ := (h.earliest_iff hdistinct hadded).mp hu
    rw [h.text t ht.1] at hc
    exact ((casing_eq_some_iff hdistinct).mpr ⟨t, ht, hc⟩).symm

/-- On each axis the earliest declared name decides, and nothing else: neither the names on the
other axes nor those that are declared later. -/
theorem casing_of_earliest_name (hdistinct : DistinctStarts (Declares l doc axis)) :
    ((analyze l doc).naming.casing axis = none ↔ ¬∃ t, Declares l doc axis t) ∧
    (∀ c, (analyze l doc).naming.casing axis = some c ↔
      ∃ t, Earliest (Declares l doc axis) t ∧ c = Casing.classify (doc.text t)) ∧
    (∀ other, (∀ t, Declares l other axis t ↔ Declares l doc axis t) →
      (∀ t, Declares l doc axis t → other.text t = doc.text t) →
      (analyze l other).naming.casing axis = (analyze l doc).naming.casing axis) ∧
    (∀ other place, Carries doc other (Declares l doc axis) (Declares l other axis) place →
      (∀ u, Declares l other axis u → (∃ t, Declares l doc axis t ∧ u = place t) ∨
        ∃ t, Declares l doc axis t ∧ (place t).start < u.start) →
      (analyze l other).naming.casing axis = (analyze l doc).naming.casing axis) := by
  refine ⟨casing_eq_none_iff, fun c => casing_eq_some_iff hdistinct, ?_, ?_⟩
  · intro other hsame htext
    have hcarries : Carries doc other (Declares l doc axis) (Declares l other axis) id :=
      ⟨fun t ht => (hsame t).mpr ht, htext, fun _ _ _ _ hlt => hlt⟩
    apply casing_of_carries hdistinct hcarries
    intro u hu
    exact Or.inl ⟨u, (hsame u).mp hu, rfl⟩
  · intro other place h hadded
    exact casing_of_carries hdistinct h hadded

end

def sampleIdentifier (start stop : Nat) : Tree :=
  .node "identifier" true (some "name") start stop []

/-- The declaration of a function with its name from one octet to another. -/
def sampleFunction (start stop : Nat) : Tree :=
  .node "function_declaration" true none (start - 5) (stop + 5) [sampleIdentifier start stop]

/-- A source in which a function whose name fits no style stands before one in camel case, with
some functions of its tree. -/
def sampleFunctions (functions : List Tree) : Document where
  source := "func Get_user() {}\nfunc getUser() {}".toUTF8
  root := .node "source_file" true none 0 36 functions

theorem declares_sampleFunction {t : Tree} :
    Declares .go (sampleFunctions [sampleFunction 5 13]) .functionName t ↔
      t = sampleIdentifier 5 13 := by
  have hmatches : (namingQueryOf .go).matches (sampleFunctions [sampleFunction 5 13]) =
      [[(Axis.functionName.capture, sampleIdentifier 5 13)]] := rfl
  rw [← binds_capture_iff, Binds, hmatches]
  simp

theorem declares_sampleFunctions {t : Tree} :
    Declares .go (sampleFunctions [sampleFunction 5 13, sampleFunction 24 31]) .functionName t ↔
      t = sampleIdentifier 5 13 ∨ t = sampleIdentifier 24 31 := by
  have hmatches : (namingQueryOf .go).matches
      (sampleFunctions [sampleFunction 5 13, sampleFunction 24 31]) =
      [[(Axis.functionName.capture, sampleIdentifier 5 13)],
        [(Axis.functionName.capture, sampleIdentifier 24 31)]] := rfl
  rw [← binds_capture_iff, Binds, hmatches]
  simp

/-- The function that fits no style decides, with the other function after it and without. -/
theorem casing_of_earliest_name_sample :
    (analyze .go (sampleFunctions [sampleFunction 5 13])).naming.casing .functionName =
        some .unknown ∧
      (analyze .go (sampleFunctions [sampleFunction 5 13,
        sampleFunction 24 31])).naming.casing .functionName = some .unknown ∧
      Casing.classify ((sampleFunctions []).text (sampleIdentifier 24 31)) = .camel := by
  have hearliest : Earliest (Declares .go (sampleFunctions [sampleFunction 5 13]) .functionName)
      (sampleIdentifier 5 13) := earliest_of_only fun _ => declares_sampleFunction
  have hdistinct : DistinctStarts
      (Declares .go (sampleFunctions [sampleFunction 5 13]) .functionName) :=
    distinctStarts_of_only fun _ => declares_sampleFunction
  have hunknown : Casing.unknown = Casing.classify
      ((sampleFunctions [sampleFunction 5 13]).text (sampleIdentifier 5 13)) := by decide +kernel
  obtain ⟨-, hfirst, -, hlater⟩ := casing_of_earliest_name hdistinct
  have hcasing := (hfirst .unknown).mpr ⟨_, hearliest, hunknown⟩
  refine ⟨hcasing, ?_, by decide +kernel⟩
  rw [hlater (sampleFunctions [sampleFunction 5 13, sampleFunction 24 31]) id, hcasing]
  · exact ⟨fun t ht => declares_sampleFunctions.mpr (Or.inl (declares_sampleFunction.mp ht)),
      fun _ _ => rfl, fun _ _ _ _ hlt => hlt⟩
  · intro u hu
    rcases declares_sampleFunctions.mp hu with rfl | rfl
    · exact Or.inl ⟨_, hearliest.1, rfl⟩
    · exact Or.inr ⟨_, hearliest.1, by decide⟩

end Analysis

end Conventions
