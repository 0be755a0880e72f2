import Conventions.Proofs.Analysis.Patterns

/-!
# Embeddings of patterns

A pattern is a tree itself, and its parts have places: the numbers of the children on the way to
them. An embedding lays the part at each place on a node, children on children, so that kinds and
fields are as the pattern asks. The search for matches finds all embeddings and nothing else, as
far as their captures go: the bindings of a match are the captured parts of one embedding, each
with the node it lies on.
-/
namespace Conventions.Syntax

/-- A node is another one or stands somewhere below it. -/
inductive Tree.Within : Tree → Tree → Prop
  | refl (t : Tree) : Within t t
  | child {t u v : Tree} (hu : u ∈ t.children) (h : Within u v) : Within t v

@[elab_as_elim]
theorem Tree.induct {motive : Tree → Prop}
    (node : ∀ kind named field start stop children, (∀ u ∈ children, motive u) →
      motive (.node kind named field start stop children)) (t : Tree) : motive t := by
  refine @Tree.rec motive (fun children => ∀ u ∈ children, motive u) node nofun ?_ t
  intro u children hu hchildren v hv
  rcases List.mem_cons.mp hv with rfl | hv
  · exact hu
  · exact hchildren v hv

theorem Tree.nodesOfAll_eq (ts : List Tree) : nodesOfAll ts = ts.flatMap nodes := by
  induction ts with
  | nil => rfl
  | cons t ts ih => rw [nodesOfAll, ih, List.flatMap_cons]

theorem Tree.mem_nodes {t u : Tree} : u ∈ t.nodes ↔ t.Within u := by
  induction t using Tree.induct with
  | node kind named field start stop children ih =>
    rw [nodes, nodesOfAll_eq, List.mem_cons, List.mem_flatMap]
    constructor
    · rintro (rfl | ⟨v, hv, hu⟩)
      · exact .refl _
      · exact .child hv ((ih v hv).mp hu)
    · intro h
      cases h with
      | refl => exact Or.inl rfl
      | child hv h => exact Or.inr ⟨_, hv, (ih _ hv).mpr h⟩

@[elab_as_elim]
theorem Pattern.induct {motive : Pattern → Prop}
    (node : ∀ kind capture children, (∀ c ∈ children, motive c.2) →
      motive (.node kind capture children)) (p : Pattern) : motive p := by
  refine @Pattern.rec motive (fun children => ∀ c ∈ children, motive c.2) (fun c => motive c.2)
    node nofun ?_ (fun _ _ h => h) p
  intro c children hc hchildren d hd
  rcases List.mem_cons.mp hd with rfl | hd
  · exact hc
  · exact hchildren d hd

/-- The part of a pattern at a place: the numbers of the children on the way to it. -/
def Pattern.at? : Pattern → List Nat → Option Pattern
  | p, [] => some p
  | .node _ _ children, i :: place =>
    match children[i]? with
    | some child => child.2.at? place
    | none => none

/-- A layout puts the whole pattern on the node, each part on a node of the kind that it asks for,
and each child of a part on a child that fills the field it asks for. -/
structure Embeds (p : Pattern) (t : Tree) (layout : List Nat → Tree) : Prop where
  root : layout [] = t
  kind : ∀ place kind capture children, p.at? place = some (.node kind capture children) →
    kind.accepts (layout place) = true
  child : ∀ place kind capture children i field q,
    p.at? place = some (.node kind capture children) → children[i]? = some (field, q) →
      layout (place ++ [i]) ∈ (layout place).children ∧
        fieldFits field (layout (place ++ [i])) = true

/-- A part with this capture is laid on the node. -/
def Pattern.Marks (p : Pattern) (layout : List Nat → Tree) (name : String) (u : Tree) : Prop :=
  ∃ place kind children, p.at? place = some (.node kind (some name) children) ∧ layout place = u

section

variable {kind : NodeKind} {capture : Option String} {field : Option String} {q : Pattern}
  {children rest : List (Option String × Pattern)} {t u : Tree} {candidates : List Tree}
  {layout : List Nat → Tree} {layouts : Nat → List Nat → Tree} {name : String}

/-- Each child pattern has an embedding into a candidate that fills its field. -/
def EmbedsAll (children : List (Option String × Pattern)) (candidates : List Tree)
    (layouts : Nat → List Nat → Tree) : Prop :=
  ∀ i field q, children[i]? = some (field, q) → layouts i [] ∈ candidates ∧
    fieldFits field (layouts i []) = true ∧ Embeds q (layouts i []) (layouts i)

/-- A part of a child pattern with this capture is laid on the node. -/
def MarksAny (children : List (Option String × Pattern)) (layouts : Nat → List Nat → Tree)
    (name : String) (u : Tree) : Prop :=
  ∃ i field, ∃ q : Pattern, children[i]? = some (field, q) ∧ q.Marks (layouts i) name u

theorem embedsAll_cons : EmbedsAll ((field, q) :: rest) candidates layouts ↔
    (layouts 0 [] ∈ candidates ∧ fieldFits field (layouts 0 []) = true ∧
      Embeds q (layouts 0 []) (layouts 0)) ∧
      EmbedsAll rest candidates fun i => layouts (i + 1) := by
  constructor
  · intro h
    exact ⟨h 0 field q rfl, fun i field q hi => h (i + 1) field q hi⟩
  · intro ⟨hfirst, hrest⟩ i field' q' hi
    cases i with
    | zero =>
      obtain ⟨rfl, rfl⟩ := Prod.mk.inj (Option.some.inj hi)
      exact hfirst
    | succ i => exact hrest i field' q' hi

theorem marksAny_cons : MarksAny ((field, q) :: rest) layouts name u ↔
    q.Marks (layouts 0) name u ∨ MarksAny rest (fun i => layouts (i + 1)) name u := by
  constructor
  · intro ⟨i, field', q', hi, hmarks⟩
    cases i with
    | zero =>
      obtain ⟨rfl, rfl⟩ := Prod.mk.inj (Option.some.inj hi)
      exact Or.inl hmarks
    | succ i => exact Or.inr ⟨i, field', q', hi, hmarks⟩
  · rintro (hmarks | ⟨i, field', q', hi, hmarks⟩)
    · exact ⟨0, field, q, rfl, hmarks⟩
    · exact ⟨i + 1, field', q', hi, hmarks⟩

theorem Pattern.at?_cons {i : Nat} {place : List Nat} {p : Pattern} :
    (Pattern.node kind capture children).at? (i :: place) = some p ↔
      ∃ field, ∃ q : Pattern, children[i]? = some (field, q) ∧ q.at? place = some p := by
  rw [Pattern.at?]
  cases children[i]? with
  | none => simp
  | some c => exact ⟨fun h => ⟨c.1, c.2, rfl, h⟩, fun ⟨_, _, hc, h⟩ => Option.some.inj hc ▸ h⟩

/-- An embedding of a pattern is one of each child pattern, below the node. -/
theorem embeds_node : Embeds (.node kind capture children) t layout ↔
    layout [] = t ∧ kind.accepts t = true ∧
      EmbedsAll children t.children fun i place => layout (i :: place) := by
  constructor
  · intro h
    refine ⟨h.root, h.root ▸ h.kind [] kind capture children rfl, fun i field q hi => ?_⟩
    obtain ⟨hmem, hfield⟩ := h.child [] kind capture children i field q rfl hi
    refine ⟨h.root ▸ hmem, hfield, rfl, fun place kind' capture' children' hat => ?_,
      fun place kind' capture' children' j field' q' hat hj => ?_⟩
    · exact h.kind (i :: place) kind' capture' children' (Pattern.at?_cons.mpr ⟨field, q, hi, hat⟩)
    · exact h.child (i :: place) kind' capture' children' j field' q'
        (Pattern.at?_cons.mpr ⟨field, q, hi, hat⟩) hj
  · intro ⟨hroot, hkind, hall⟩
    refine ⟨hroot, fun place kind' capture' children' hat => ?_,
      fun place kind' capture' children' j field' q' hat hj => ?_⟩
    · cases place with
      | nil =>
        obtain ⟨rfl, -, -⟩ := Pattern.node.inj (Option.some.inj hat)
        exact hroot ▸ hkind
      | cons i place =>
        obtain ⟨field, q, hi, hat⟩ := Pattern.at?_cons.mp hat
        exact (hall i field q hi).2.2.kind place kind' capture' children' hat
    · cases place with
      | nil =>
        obtain ⟨-, -, rfl⟩ := Pattern.node.inj (Option.some.inj hat)
        obtain ⟨hmem, hfield, -⟩ := hall j field' q' hj
        exact ⟨hroot ▸ hmem, hfield⟩
      | cons i place =>
        obtain ⟨field, q, hi, hat⟩ := Pattern.at?_cons.mp hat
        exact (hall i field q hi).2.2.child place kind' capture' children' j field' q' hat hj

theorem marks_node : (Pattern.node kind capture children).Marks layout name u ↔
    capture = some name ∧ layout [] = u ∨
      MarksAny children (fun i place => layout (i :: place)) name u := by
  constructor
  · intro ⟨place, kind', children', hat, hu⟩
    cases place with
    | nil =>
      obtain ⟨-, hcapture, -⟩ := Pattern.node.inj (Option.some.inj hat)
      exact Or.inl ⟨hcapture, hu⟩
    | cons i place =>
      obtain ⟨field, q, hi, hat⟩ := Pattern.at?_cons.mp hat
      exact Or.inr ⟨i, field, q, hi, place, kind', children', hat, hu⟩
  · rintro (⟨rfl, hu⟩ | ⟨i, field, q, hi, place, kind', children', hat, hu⟩)
    · exact ⟨[], kind, children, rfl, hu⟩
    · exact ⟨i :: place, kind', children', Pattern.at?_cons.mpr ⟨field, q, hi, hat⟩, hu⟩

end

/-- The bindings are the marked nodes with their names. -/
def Pattern.Shows (p : Pattern) (layout : List Nat → Tree) (m : List Binding) : Prop :=
  ∀ name u, (name, u) ∈ m ↔ p.Marks layout name u

open Analysis (mem_matches mem_childMatches_cons mem_childMatches_nil satisfied_iff
  mem_matchesAt_cond)

theorem mem_bindCapture {capture : Option String} {t u : Tree} {name : String} :
    (name, u) ∈ bindCapture capture t ↔ capture = some name ∧ t = u := by
  cases capture <;> simp [bindCapture, eq_comm]

/-- A layout of a pattern from the node of its root and layouts of its children. -/
def joined (t : Tree) (layouts : Nat → List Nat → Tree) : List Nat → Tree
  | [] => t
  | i :: place => layouts i place

/-- A layout for the first child in front of those for the others. -/
def inFront (layout : List Nat → Tree) (layouts : Nat → List Nat → Tree) :
    Nat → List Nat → Tree
  | 0 => layout
  | i + 1 => layouts i

/-- A way to lay child patterns on candidates is an embedding of each. -/
theorem exists_embedsAll {children : List (Option String × Pattern)} {candidates : List Tree}
    {m : List Binding} (ih : ∀ c ∈ children, ∀ t m, m ∈ c.2.matches t →
      ∃ layout, Embeds c.2 t layout ∧ c.2.Shows layout m)
    (h : m ∈ childMatches candidates children) :
    ∃ layouts, EmbedsAll children candidates layouts ∧
      ∀ name u, (name, u) ∈ m ↔ MarksAny children layouts name u := by
  induction children generalizing m with
  | nil =>
    obtain rfl := mem_childMatches_nil.mp h
    refine ⟨fun _ _ => .node "" false none 0 0 [], nofun, fun name u => ?_⟩
    exact ⟨nofun, fun ⟨_, _, _, hi, _⟩ => nomatch hi⟩
  | cons c rest ihrest =>
    obtain ⟨field, q⟩ := c
    obtain ⟨u, hu, hfield, here, hhere, behind, hbehind, rfl⟩ := mem_childMatches_cons.mp h
    obtain ⟨layout, hlayout, hshows⟩ := ih _ List.mem_cons_self u here hhere
    obtain ⟨layouts, hlayouts, hrest⟩ :=
      ihrest (fun c hc => ih c (List.mem_cons_of_mem _ hc)) hbehind
    refine ⟨inFront layout layouts, embedsAll_cons.mpr ⟨?_, hlayouts⟩, fun name v => ?_⟩
    · show layout [] ∈ candidates ∧ fieldFits field (layout []) = true ∧ Embeds q (layout []) layout
      rw [hlayout.root]
      exact ⟨hu, hfield, hlayout⟩
    · rw [List.mem_append, hshows, hrest, marksAny_cons]
      rfl

/-- Each match is shown by an embedding. -/
theorem exists_embeds {p : Pattern} {t : Tree} {m : List Binding} (h : m ∈ p.matches t) :
    ∃ layout, Embeds p t layout ∧ p.Shows layout m := by
  induction p using Pattern.induct generalizing t m with
  | node kind capture children ih =>
    obtain ⟨hkind, below, hbelow, rfl⟩ := mem_matches.mp h
    obtain ⟨layouts, hall, hmarks⟩ := exists_embedsAll (fun c hc t m => ih c hc) hbelow
    refine ⟨joined t layouts, embeds_node.mpr ⟨rfl, hkind, hall⟩, fun name u => ?_⟩
    rw [List.mem_append, mem_bindCapture, hmarks, marks_node]
    rfl

/-- Embeddings of child patterns into candidates are one way to lay them there. -/
theorem exists_childMatch {children : List (Option String × Pattern)} {candidates : List Tree}
    {layouts : Nat → List Nat → Tree} (ih : ∀ c ∈ children, ∀ t layout, Embeds c.2 t layout →
      ∃ m ∈ c.2.matches t, c.2.Shows layout m)
    (h : EmbedsAll children candidates layouts) :
    ∃ m ∈ childMatches candidates children,
      ∀ name u, (name, u) ∈ m ↔ MarksAny children layouts name u := by
  induction children generalizing layouts with
  | nil =>
    refine ⟨[], mem_childMatches_nil.mpr rfl, fun name u => ?_⟩
    exact ⟨nofun, fun ⟨_, _, _, hi, _⟩ => nomatch hi⟩
  | cons c rest ihrest =>
    obtain ⟨field, q⟩ := c
    obtain ⟨⟨hmem, hfield, hfirst⟩, hrest⟩ := embedsAll_cons.mp h
    obtain ⟨here, hhere, hshows⟩ := ih _ List.mem_cons_self _ _ hfirst
    obtain ⟨behind, hbehind, hmarks⟩ :=
      ihrest (fun c hc => ih c (List.mem_cons_of_mem _ hc)) hrest
    refine ⟨here ++ behind, mem_childMatches_cons.mpr
      ⟨_, hmem, hfield, here, hhere, behind, hbehind, rfl⟩, fun name u => ?_⟩
    rw [List.mem_append, hshows, hmarks, marksAny_cons]

/-- Each embedding shows a match. -/
theorem Embeds.exists_match {p : Pattern} {t : Tree} {layout : List Nat → Tree}
    (h : Embeds p t layout) : ∃ m ∈ p.matches t, p.Shows layout m := by
  induction p using Pattern.induct generalizing t layout with
  | node kind capture children ih =>
    obtain ⟨hroot, hkind, hall⟩ := embeds_node.mp h
    obtain ⟨below, hbelow, hmarks⟩ := exists_childMatch (fun c hc t layout => ih c hc) hall
    refine ⟨bindCapture capture t ++ below, mem_matches.mpr ⟨hkind, below, hbelow, rfl⟩,
      fun name u => ?_⟩
    rw [List.mem_append, mem_bindCapture, hmarks, marks_node, hroot]

/-- The conditions of a rule hold of the texts of the marked nodes. -/
def Rule.Allows (doc : Document) (rule : Rule) (layout : List Nat → Tree) : Prop :=
  ∀ c ∈ rule.conditions, ∀ u, rule.pattern.Marks layout c.capture u →
    c.holds (doc.text u).toList = true

/-- Some rule of the query can be embedded into the tree with a part of this name on the node. -/
def Query.Marks (doc : Document) (query : Query) (name : String) (u : Tree) : Prop :=
  ∃ rule ∈ query, ∃ t layout, doc.root.Within t ∧ Embeds rule.pattern t layout ∧
    rule.Allows doc layout ∧ rule.pattern.Marks layout name u

variable {doc : Document} {query : Query}

theorem allows_iff {rule : Rule} {layout : List Nat → Tree} {m : List Binding}
    (h : rule.pattern.Shows layout m) :
    rule.Allows doc layout ↔ ∀ c ∈ rule.conditions, c.satisfied doc m = true := by
  refine forall₂_congr fun c _ => ?_
  rw [satisfied_iff]
  exact forall_congr' fun u => imp_congr_left (h c.capture u).symm

/-- What matches bind is what embeddings mark. -/
theorem binds_iff_marks {name : String} {u : Tree} :
    Binds doc query name u ↔ query.Marks doc name u := by
  rw [binds_iff]
  constructor
  · intro ⟨rule, hrule, t, ht, m, hm, hu⟩
    obtain ⟨hm, hconditions⟩ := mem_matchesAt_cond.mp hm
    obtain ⟨layout, hlayout, hshows⟩ := exists_embeds hm
    exact ⟨rule, hrule, t, layout, Tree.mem_nodes.mp ht, hlayout,
      (allows_iff hshows).mpr hconditions, (hshows name u).mp hu⟩
  · intro ⟨rule, hrule, t, layout, ht, hlayout, hallows, hu⟩
    obtain ⟨m, hm, hshows⟩ := hlayout.exists_match
    exact ⟨rule, hrule, t, Tree.mem_nodes.mpr ht, m,
      mem_matchesAt_cond.mpr ⟨hm, (allows_iff hshows).mp hallows⟩, (hshows name u).mpr hu⟩

end Conventions.Syntax
