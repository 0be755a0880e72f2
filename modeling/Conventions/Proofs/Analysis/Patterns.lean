import Conventions.Analysis.Basic
import Conventions.Proofs.Syntax.SourceOrder

/-!
# What patterns ask for

A pattern is laid on a tree by a search that lists every way to do it. The lemmas here say of each
kind of pattern which lists of bindings the search finds, in terms of nodes and their children. With
them `simp` turns a query into a statement about the tree.
-/
namespace Conventions

open Syntax Analysis

namespace Syntax.Tree

/-- A named node of a kind. -/
def Is (t : Tree) (kind : String) : Prop := t.named = true ∧ t.kind = kind

/-- A literal token. -/
def IsToken (t : Tree) (text : String) : Prop := t.named = false ∧ t.kind = text

/-- The node has a child that fills a field. -/
def Holds (t : Tree) (field : String) (u : Tree) : Prop := u ∈ t.children ∧ u.field = some field

/-- A node is of one kind. -/
theorem Is.kind_eq {t : Tree} {kind other : String} (h : t.Is kind) (h' : t.Is other) :
    kind = other :=
  h.2.symm.trans h'.2

end Syntax.Tree

namespace Analysis

theorem accepts_named {kind : String} {t : Tree} :
    (NodeKind.named kind).accepts t = true ↔ t.Is kind := by
  rw [NodeKind.accepts, Bool.and_eq_true, beq_iff_eq, Tree.Is]

theorem accepts_token {text : String} {t : Tree} :
    (NodeKind.token text).accepts t = true ↔ t.IsToken text := by
  rw [NodeKind.accepts, Bool.and_eq_true, Bool.not_eq_true', beq_iff_eq, Tree.IsToken]

theorem mem_matches {kind : NodeKind} {capture : Option String}
    {children : List (Option String × Pattern)} {t : Tree} {m : List Binding} :
    m ∈ (Pattern.node kind capture children).matches t ↔ kind.accepts t = true ∧
      ∃ below ∈ childMatches t.children children, m = bindCapture capture t ++ below := by
  rw [Pattern.matches]
  split
  next h => simp [h, eq_comm]
  next h => simp [h]

theorem mem_childMatches_cons {candidates : List Tree} {field : Option String} {p : Pattern}
    {rest : List (Option String × Pattern)} {m : List Binding} :
    m ∈ childMatches candidates ((field, p) :: rest) ↔
      ∃ u ∈ candidates, fieldFits field u = true ∧ ∃ here ∈ p.matches u,
        ∃ behind ∈ childMatches candidates rest, m = here ++ behind := by
  rw [childMatches]
  simp only [List.mem_flatMap, List.mem_filter, List.mem_map, eq_comm (b := m)]
  constructor
  · intro ⟨here, ⟨u, ⟨hu, hfield⟩, hhere⟩, hbehind⟩
    exact ⟨u, hu, hfield, here, hhere, hbehind⟩
  · intro ⟨u, hu, hfield, here, hhere, hbehind⟩
    exact ⟨here, ⟨u, ⟨hu, hfield⟩, hhere⟩, hbehind⟩

section

variable {t : Tree} {m : List Binding} {kind name : String} {p : Pattern}
  {children rest : List (Option String × Pattern)}

@[simp]
theorem mem_childMatches_nil {candidates : List Tree} :
    m ∈ childMatches candidates [] ↔ m = [] := by
  rw [childMatches, List.mem_singleton]

@[simp]
theorem mem_childMatches_field : m ∈ childMatches t.children (field name p :: rest) ↔
    ∃ u, t.Holds name u ∧ ∃ here ∈ p.matches u, ∃ behind ∈ childMatches t.children rest,
      m = here ++ behind := by
  rw [field, mem_childMatches_cons]
  simp only [fieldFits, beq_iff_eq, Tree.Holds, and_assoc]

@[simp]
theorem mem_childMatches_child : m ∈ childMatches t.children (child p :: rest) ↔
    ∃ u ∈ t.children, ∃ here ∈ p.matches u, ∃ behind ∈ childMatches t.children rest,
      m = here ++ behind := by
  rw [child, mem_childMatches_cons]
  simp only [fieldFits, true_and]

@[simp]
theorem mem_matches_leaf : m ∈ (leaf kind name).matches t ↔ t.Is kind ∧ m = [(name, t)] := by
  rw [leaf, mem_matches, accepts_named]
  simp [bindCapture]

@[simp]
theorem mem_matches_token {text : String} :
    m ∈ (Pattern.node (.token text) none []).matches t ↔ t.IsToken text ∧ m = [] := by
  rw [mem_matches, accepts_token]
  simp [bindCapture]

@[simp]
theorem mem_matches_anyNamed :
    m ∈ (Pattern.node .anyNamed (some name) []).matches t ↔ t.named = true ∧ m = [(name, t)] := by
  rw [mem_matches, NodeKind.accepts]
  simp [bindCapture]

@[simp]
theorem mem_matches_shape : m ∈ (shape kind children).matches t ↔
    t.Is kind ∧ m ∈ childMatches t.children children := by
  rw [shape, mem_matches, accepts_named]
  simp [bindCapture]

@[simp]
theorem mem_matches_captureShape : m ∈ (captureShape kind name children).matches t ↔
    t.Is kind ∧ ∃ below ∈ childMatches t.children children, m = (name, t) :: below := by
  rw [captureShape, mem_matches, accepts_named]
  rfl

variable {doc : Document}

@[simp]
theorem mem_matchesAt_rule : m ∈ (rule p).matchesAt doc t ↔ m ∈ p.matches t := by
  simp [Rule.matchesAt, rule]

@[simp]
theorem mem_matchesAt_cond {conditions : List Condition} :
    m ∈ (Rule.mk p conditions).matchesAt doc t ↔
      m ∈ p.matches t ∧ ∀ c ∈ conditions, c.satisfied doc m = true := by
  rw [Rule.matchesAt, List.mem_filter, List.all_eq_true]

@[simp]
theorem satisfied_iff {holds : List Char → Bool} :
    (Condition.mk name holds).satisfied doc m = true ↔
      ∀ u, (name, u) ∈ m → holds (doc.text u).toList = true := by
  simp only [Condition.satisfied, List.all_eq_true, Bool.or_eq_true, bne_iff_ne, ← imp_iff_not_or]
  constructor
  · intro h u hu
    exact h (name, u) hu rfl
  · intro h ⟨other, u⟩ hu hname
    cases hname
    exact h u hu

@[simp]
theorem satisfied_textIs {text : String} : (textIs name text).satisfied doc m = true ↔
    ∀ u, (name, u) ∈ m → doc.text u = text := by
  rw [textIs, satisfied_iff]
  simp only [beq_iff_eq, String.toList_inj]

theorem mem_matchesAt_declaredName {fieldName nameKind axis : String} :
    m ∈ (declaredName kind fieldName nameKind axis).matchesAt doc t ↔
      t.Is kind ∧ ∃ u, t.Holds fieldName u ∧ u.Is nameKind ∧ m = [(axis ++ ".name", u)] := by
  simp [declaredName]

end

end Analysis

end Conventions
