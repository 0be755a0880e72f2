import Conventions.Analysis.Go
import Conventions.Proofs.Syntax.Embedding

/-!
# The captures of a query

The captures are exact: a name has a range among them iff an embedding of a rule puts a part of that
name on a node with that range. Each name has each range once, and they come by first octet and
then by name. Where that order leaves nothing open, because no name is bound to two nodes that start
at one octet, the captures are the same in whatever order the matches are found.
-/
namespace Conventions.Syntax

/-- The captures that are collected from matches found in this order. -/
def collected (ms : List (List Binding)) : List Binding :=
  (firstCaptures ms.flatten).mergeSort captureLe

theorem captured_eq_collected (doc : Document) (query : Query) :
    captured doc query = collected (query.matches doc) := rfl

/-- The name of a capture and the range of its node. -/
def span (b : Binding) : String × Nat × Nat := (b.1, b.2.start, b.2.stop)

theorem sameCapture_iff {a b : Binding} : sameCapture a b = true ↔ span a = span b := by
  simp only [sameCapture, span, Bool.and_eq_true, beq_iff_eq, Prod.mk.injEq, and_assoc]

section

variable {ms : List (List Binding)}

theorem mem_flatten_of_mem_collected {b : Binding} (h : b ∈ collected ms) : b ∈ ms.flatten :=
  mem_of_mem_firstCaptures ((List.mergeSort_perm _ _).mem_iff.mp h)

theorem exists_mem_collected {b : Binding} (h : b ∈ ms.flatten) :
    ∃ a ∈ collected ms, span a = span b := by
  obtain ⟨a, ha, hsame⟩ := exists_sameCapture h
  exact ⟨a, (List.mergeSort_perm _ _).mem_iff.mpr ha, (sameCapture_iff.mp hsame).symm⟩

/-- Each name has each range once. -/
theorem nodup_span_collected (ms : List (List Binding)) : ((collected ms).map span).Nodup := by
  refine ((List.mergeSort_perm _ _).map span).nodup_iff.mpr (List.pairwise_map.mpr ?_)
  refine (pairwise_firstCaptures _).imp fun {a b} hnew heq => ?_
  rw [sameCapture_iff.mpr heq.symm] at hnew
  cases hnew

theorem pairwise_collected (ms : List (List Binding)) :
    (collected ms).Pairwise fun a b => captureLe a b = true :=
  List.pairwise_mergeSort captureLe_trans captureLe_total _

end

section

variable {β : Type} {f : Binding → β} {ms ms' : List (List Binding)}

/-- The matches bind the same names to the same nodes, in whatever order. -/
def SameBindings (ms ms' : List (List Binding)) : Prop := ∀ b, b ∈ ms.flatten ↔ b ∈ ms'.flatten

/-- What is seen of a binding is no less than its range, and where the order of captures leaves two
bindings open, it is the same for both. -/
structure Decisive (f : Binding → β) (ms : List (List Binding)) : Prop where
  fine : ∀ a b, f a = f b → span a = span b
  one : ∀ a ∈ ms.flatten, ∀ b ∈ ms.flatten, a.1 = b.1 → a.2.start = b.2.start → f a = f b

theorem Decisive.congr (h : Decisive f ms) (hsame : SameBindings ms ms') : Decisive f ms' :=
  ⟨h.fine, fun a ha b hb => h.one a ((hsame a).mpr ha) b ((hsame b).mpr hb)⟩

theorem Decisive.mem_map (h : Decisive f ms) {x : β} :
    x ∈ (collected ms).map f ↔ x ∈ ms.flatten.map f := by
  constructor
  · intro hx
    obtain ⟨b, hb, rfl⟩ := List.mem_map.mp hx
    exact List.mem_map.mpr ⟨b, mem_flatten_of_mem_collected hb, rfl⟩
  · intro hx
    obtain ⟨b, hb, rfl⟩ := List.mem_map.mp hx
    obtain ⟨a, ha, hsame⟩ := exists_mem_collected hb
    obtain ⟨hname, hrange⟩ := Prod.mk.inj hsame
    refine List.mem_map.mpr ⟨a, ha, ?_⟩
    exact h.one a (mem_flatten_of_mem_collected ha) b hb hname (Prod.mk.inj hrange).1

theorem Decisive.nodup_map (h : Decisive f ms) : ((collected ms).map f).Nodup := by
  refine List.pairwise_map.mpr ((List.pairwise_map.mp (nodup_span_collected ms)).imp ?_)
  exact fun {a b} hne heq => hne (h.fine a b heq)

/-- Two bindings that are seen as these stand in source order. -/
def InOrder (f : Binding → β) (ms : List (List Binding)) (x y : β) : Prop :=
  ∃ a ∈ ms.flatten, ∃ b ∈ ms.flatten, f a = x ∧ f b = y ∧ captureLe a b = true

theorem pairwise_inOrder (hsame : SameBindings ms ms') :
    ((collected ms').map f).Pairwise (InOrder f ms) := by
  refine List.pairwise_map.mpr ((pairwise_collected ms').imp_of_mem fun {a b} ha hb hle => ?_)
  exact ⟨a, (hsame a).mpr (mem_flatten_of_mem_collected ha), b,
    (hsame b).mpr (mem_flatten_of_mem_collected hb), rfl, rfl, hle⟩

theorem Decisive.antisymm (h : Decisive f ms) {x y : β} (hxy : InOrder f ms x y)
    (hyx : InOrder f ms y x) : x = y := by
  obtain ⟨a, ha, b, hb, rfl, rfl, hab⟩ := hxy
  obtain ⟨b', -, a', -, hb', ha', hba⟩ := hyx
  have hplace : ∀ {c d : Binding}, f c = f d → toLex (c.2.start, c.1) = toLex (d.2.start, d.1) := by
    intro c d heq
    obtain ⟨hname, hrange⟩ := Prod.mk.inj (h.fine c d heq)
    rw [hname, (Prod.mk.inj hrange).1]
  rw [captureLe_iff_toLex_le] at hab hba
  rw [hplace ha', hplace hb'] at hba
  obtain ⟨hstart, hname⟩ := Prod.mk.inj (toLex.injective (le_antisymm hab hba))
  exact h.one a ha b hb hname hstart

/-- Where the order decides, it is the only one for what is seen of the captures. -/
theorem Decisive.map_collected_eq (h : Decisive f ms) (hsame : SameBindings ms ms') :
    (collected ms').map f = (collected ms).map f := by
  have h' := h.congr hsame
  have hperm : ((collected ms').map f).Perm ((collected ms).map f) := by
    refine (List.perm_ext_iff_of_nodup h'.nodup_map h.nodup_map).mpr fun x => ?_
    rw [h.mem_map, h'.mem_map, List.mem_map, List.mem_map]
    exact exists_congr fun b => and_congr_left' (hsame b).symm
  exact hperm.eq_of_pairwise (fun _ _ _ _ => h.antisymm) (pairwise_inOrder hsame)
    (pairwise_inOrder fun _ => Iff.rfl)

end

section

variable {doc : Document} {query : Query}

theorem marks_iff_mem {name : String} {u : Tree} :
    query.Marks doc name u ↔ (name, u) ∈ (query.matches doc).flatten := by
  rw [← binds_iff_marks, Binds, List.mem_flatten]

/-- A name is captured with a range iff some embedding puts it on a node with that range. -/
theorem exists_captured_iff {name : String} {start stop : Nat} :
    (∃ u, (name, u) ∈ captured doc query ∧ u.start = start ∧ u.stop = stop) ↔
      ∃ u, query.Marks doc name u ∧ u.start = start ∧ u.stop = stop := by
  rw [captured_eq_collected]
  constructor
  · rintro ⟨u, hu, hrange⟩
    exact ⟨u, marks_iff_mem.mpr (mem_flatten_of_mem_collected hu), hrange⟩
  · rintro ⟨u, hu, rfl, rfl⟩
    obtain ⟨⟨name', v⟩, hv, hspan⟩ := exists_mem_collected (marks_iff_mem.mp hu)
    obtain ⟨rfl, hrange⟩ := Prod.mk.inj hspan
    exact ⟨v, hv, Prod.mk.inj hrange⟩

theorem decisive_of_marks {β : Type} {f : Binding → β} (hfine : ∀ a b, f a = f b → span a = span b)
    (hone : ∀ name u v, query.Marks doc name u → query.Marks doc name v → u.start = v.start →
      f (name, u) = f (name, v)) : Decisive f (query.matches doc) := by
  refine ⟨hfine, ?_⟩
  rintro ⟨name, u⟩ hu ⟨name', v⟩ hv rfl hstart
  exact hone name u v (marks_iff_mem.mpr hu) (marks_iff_mem.mpr hv) hstart

/-- The captures are exact, each name has each range once, and they come in source order. If no two
nodes that are marked with one name start at one octet, then no other order of the matches, or of
the bindings in them, gives other captures; if such nodes have one range at least, no other order
gives other ranges. -/
theorem captured_exact (doc : Document) (query : Query) :
    (∀ name start stop, (∃ u, (name, u) ∈ captured doc query ∧ u.start = start ∧ u.stop = stop) ↔
      ∃ u, query.Marks doc name u ∧ u.start = start ∧ u.stop = stop) ∧
      ((captured doc query).map span).Nodup ∧
      (captured doc query).Pairwise (fun a b =>
        a.2.start < b.2.start ∨ a.2.start = b.2.start ∧ a.1 ≤ b.1) ∧
      ∀ ms, SameBindings (query.matches doc) ms →
        ((∀ name u v, query.Marks doc name u → query.Marks doc name v → u.start = v.start →
          u = v) → collected ms = captured doc query) ∧
        ((∀ name u v, query.Marks doc name u → query.Marks doc name v → u.start = v.start →
          u.stop = v.stop) → (collected ms).map span = (captured doc query).map span) := by
  refine ⟨fun _ _ _ => exists_captured_iff, ?_⟩
  rw [captured_eq_collected]
  refine ⟨nodup_span_collected _,
    (pairwise_collected _).imp captureLe_iff.mp, fun ms hsame => ⟨fun hone => ?_, fun hone => ?_⟩⟩
  · have hdecisive : Decisive id (query.matches doc) :=
      decisive_of_marks (fun _ _ => congrArg span) fun name u v hu hv hstart =>
        congrArg (Prod.mk name) (hone name u v hu hv hstart)
    have heq := hdecisive.map_collected_eq hsame
    rwa [List.map_id, List.map_id] at heq
  · have hdecisive : Decisive span (query.matches doc) :=
      decisive_of_marks (fun _ _ => id) fun name u v hu hv hstart => by
        rw [span, span, hstart, hone name u v hu hv hstart]
    exact hdecisive.map_collected_eq hsame

end

def firstLiteral : Tree := .node "interpreted_string_literal" true none 1 4 []

def secondLiteral : Tree := .node "interpreted_string_literal" true none 6 9 []

def sampleArguments : Document where
  source := "(\"a\", \"b\")".toUTF8
  root := .node "argument_list" true none 0 10 [firstLiteral, secondLiteral]

theorem matches_sampleArguments :
    Query.matches sampleArguments Analysis.Go.stringQuery =
      [[("string", firstLiteral)], [("string", secondLiteral)]] := rfl

/-- Found from the last literal to the first, the captures are the same. -/
theorem captured_exact_sample :
    SameBindings (Query.matches sampleArguments Analysis.Go.stringQuery)
        [[("string", secondLiteral)], [("string", firstLiteral)]] ∧
      collected [[("string", secondLiteral)], [("string", firstLiteral)]] =
        captured sampleArguments Analysis.Go.stringQuery := by
  have hsame : SameBindings (Query.matches sampleArguments Analysis.Go.stringQuery)
      [[("string", secondLiteral)], [("string", firstLiteral)]] := by
    intro b
    rw [matches_sampleArguments]
    simp [or_comm]
  have hmarks : ∀ {name u}, Query.Marks sampleArguments Analysis.Go.stringQuery name u →
      u = firstLiteral ∨ u = secondLiteral := by
    intro name u hu
    rw [marks_iff_mem, matches_sampleArguments] at hu
    have hbinding : name = "string" ∧ u = firstLiteral ∨ name = "string" ∧ u = secondLiteral := by
      simpa using hu
    exact hbinding.imp And.right And.right
  obtain ⟨-, -, -, horders⟩ := captured_exact sampleArguments Analysis.Go.stringQuery
  refine ⟨hsame, (horders _ hsame).1 fun name u v hu hv hstart => ?_⟩
  rcases hmarks hu with rfl | rfl <;> rcases hmarks hv with rfl | rfl
  · rfl
  · cases hstart
  · cases hstart
  · rfl

end Conventions.Syntax
