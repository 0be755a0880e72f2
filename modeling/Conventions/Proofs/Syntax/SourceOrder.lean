import Mathlib.Data.List.Nodup
import Mathlib.Data.Prod.Lex
import Mathlib.Data.String.Basic
import Conventions.Proofs.Syntax.Captures

/-!
# Captures in source order

The captures of a query are the nodes that its matches bind, up to range and each range once under
a name, and they come by first octet and then by name. So the first capture of a sort is the
earliest node of that sort, wherever in the tree it stands and whichever rule binds it.

Whether a node stays the earliest when the source is edited is a question about nodes alone. An
edit is described by where it moves them.
-/
namespace Conventions.Syntax

/-- Some match of the query binds the name to the node. -/
def Binds (doc : Document) (query : Query) (name : String) (t : Tree) : Prop :=
  ∃ m ∈ query.matches doc, (name, t) ∈ m

section

variable {doc : Document} {query : Query}

theorem binds_iff {name : String} {t : Tree} : Binds doc query name t ↔
    ∃ rule ∈ query, ∃ r ∈ doc.root.nodes, ∃ m ∈ rule.matchesAt doc r, (name, t) ∈ m := by
  simp only [Binds, mem_matches_iff]
  constructor
  · intro ⟨m, ⟨r, hr, rule, hrule, hm⟩, ht⟩
    exact ⟨rule, hrule, r, hr, m, hm, ht⟩
  · intro ⟨rule, hrule, r, hr, m, hm, ht⟩
    exact ⟨m, ⟨r, hr, rule, hrule, hm⟩, ht⟩

theorem binds_of_mem_captured {b : Binding} (h : b ∈ captured doc query) :
    Binds doc query b.1 b.2 := by
  obtain ⟨m, hm, hb⟩ := List.mem_flatten.mp (mem_of_mem_firstCaptures (mem_captured.mp h))
  exact ⟨m, hm, hb⟩

/-- What is bound is captured, if not as the same node, then as one with its range. -/
theorem Binds.captured {name : String} {t : Tree} (h : Binds doc query name t) :
    ∃ u, (name, u) ∈ captured doc query ∧ u.start = t.start ∧ doc.text u = doc.text t := by
  obtain ⟨m, hm, ht⟩ := h
  obtain ⟨⟨other, u⟩, hu, hsame⟩ := exists_sameCapture (List.mem_flatten.mpr ⟨m, hm, ht⟩)
  obtain rfl : name = other := name_eq_of_sameCapture hsame
  have htext := text_eq_of_sameCapture hsame doc
  simp only [sameCapture, Bool.and_eq_true, beq_iff_eq] at hsame
  exact ⟨u, mem_captured.mpr hu, hsame.1.2.symm, htext.symm⟩

theorem captures_iff {name : String} :
    Captures doc query name ↔ ∃ t, Binds doc query name t := by
  constructor
  · rintro ⟨⟨_, t⟩, ht, rfl⟩
    exact ⟨t, binds_of_mem_captured ht⟩
  · rintro ⟨t, ht⟩
    obtain ⟨u, hu, -⟩ := ht.captured
    exact ⟨(name, u), hu, rfl⟩

theorem captureLe_iff {a b : Binding} : captureLe a b = true ↔
    a.2.start < b.2.start ∨ a.2.start = b.2.start ∧ a.1 ≤ b.1 := by
  simp only [captureLe, Bool.or_eq_true, Bool.and_eq_true, decide_eq_true_eq, beq_iff_eq]

theorem start_le_of_captureLe {a b : Binding} (h : captureLe a b = true) :
    a.2.start ≤ b.2.start := by
  have h := captureLe_iff.mp h
  omega

theorem captureLe_iff_toLex_le {a b : Binding} :
    captureLe a b = true ↔ toLex (a.2.start, a.1) ≤ toLex (b.2.start, b.1) := by
  rw [captureLe_iff, Prod.Lex.toLex_le_toLex]

theorem captureLe_trans (a b c : Binding) (hab : captureLe a b = true)
    (hbc : captureLe b c = true) : captureLe a c = true := by
  rw [captureLe_iff_toLex_le] at hab hbc ⊢
  exact hab.trans hbc

theorem captureLe_total (a b : Binding) : (captureLe a b || captureLe b a) = true := by
  rw [Bool.or_eq_true, captureLe_iff_toLex_le, captureLe_iff_toLex_le]
  exact le_total _ _

/-- Captures come by first octet and then by name. -/
theorem pairwise_captured (doc : Document) (query : Query) :
    (captured doc query).Pairwise fun a b => captureLe a b = true :=
  List.pairwise_mergeSort captureLe_trans captureLe_total _

theorem pairwise_firstCaptures (bindings : List Binding) :
    (firstCaptures bindings).Pairwise fun a b => sameCapture b a = false := by
  induction bindings using List.reverseRecOn with
  | nil => exact List.Pairwise.nil
  | append_singleton bindings b ih =>
    rw [firstCaptures_concat]
    split
    · exact ih
    next hnew =>
      rw [List.pairwise_append]
      refine ⟨ih, List.pairwise_singleton _ _, fun a ha c hc => ?_⟩
      rw [List.mem_singleton.mp hc, ← Bool.not_eq_true]
      intro hsame
      exact hnew (List.any_eq_true.mpr ⟨a, ha, hsame⟩)

/-- No capture is listed twice. -/
theorem nodup_captured (doc : Document) (query : Query) : (captured doc query).Nodup := by
  apply (List.mergeSort_perm _ _).nodup_iff.mpr
  refine (pairwise_firstCaptures _).imp fun {a b} hnew heq => ?_
  rw [heq, sameCapture_self] at hnew
  cases hnew

/-- The nodes captured under a name, in source order. -/
def capturedNodes (doc : Document) (query : Query) (name : String) : List Tree :=
  ((captured doc query).filter fun b => b.1 == name).map Prod.snd

theorem capturedTexts_eq (doc : Document) (query : Query) (name : String) :
    capturedTexts doc query name = (capturedNodes doc query name).map doc.text := by
  rw [capturedTexts, capturedNodes, List.map_map]
  rfl

theorem mem_capturedNodes {name : String} {t : Tree} :
    t ∈ capturedNodes doc query name ↔ (name, t) ∈ captured doc query := by
  simp [capturedNodes]

theorem Binds.exists_node {name : String} {t : Tree} (h : Binds doc query name t) :
    ∃ u ∈ capturedNodes doc query name, u.start = t.start ∧ doc.text u = doc.text t := by
  obtain ⟨u, hu, hsame⟩ := h.captured
  exact ⟨u, mem_capturedNodes.mpr hu, hsame⟩

theorem pairwise_capturedNodes (doc : Document) (query : Query) (name : String) :
    (capturedNodes doc query name).Pairwise fun s t => s.start ≤ t.start := by
  apply List.pairwise_map.mpr
  exact ((pairwise_captured doc query).filter _).imp start_le_of_captureLe

theorem nodup_capturedNodes (doc : Document) (query : Query) (name : String) :
    (capturedNodes doc query name).Nodup := by
  refine List.Nodup.map_on ?_ ((nodup_captured doc query).filter _)
  intro a ha b hb hnode
  have hname := (beq_iff_eq.mp (List.mem_filter.mp ha).2).trans
    (beq_iff_eq.mp (List.mem_filter.mp hb).2).symm
  exact Prod.ext hname hnode

end

/-- The node is of the sort, and none of the sort starts before it. -/
def Earliest (P : Tree → Prop) (t : Tree) : Prop :=
  P t ∧ ∀ u, P u → t.start ≤ u.start

/-- Different nodes of the sort start at different octets. -/
def DistinctStarts (P : Tree → Prop) : Prop :=
  ∀ s t, P s → P t → s.start = t.start → s = t

theorem Earliest.unique {P : Tree → Prop} {s t : Tree} (hdistinct : DistinctStarts P)
    (hs : Earliest P s) (ht : Earliest P t) : s = t :=
  hdistinct s t hs.1 ht.1 (Nat.le_antisymm (hs.2 t ht.1) (ht.2 s hs.1))

/-- Where there is only one node of the sort, it is the earliest. -/
theorem earliest_of_only {P : Tree → Prop} {t : Tree} (h : ∀ u, P u ↔ u = t) : Earliest P t := by
  refine ⟨(h t).mpr rfl, fun u hu => ?_⟩
  obtain rfl := (h u).mp hu
  exact Nat.le_refl _

theorem distinctStarts_of_only {P : Tree → Prop} {t : Tree} (h : ∀ u, P u ↔ u = t) :
    DistinctStarts P := by
  intro u v hu hv _
  rw [(h u).mp hu, (h v).mp hv]

/-- The first node of a sort in a list that is sorted and complete is the earliest. -/
theorem earliest_of_find? {P : Tree → Prop} {nodes : List Tree} {q : Tree → Bool} {t : Tree}
    (h : nodes.find? q = some t) (hsorted : nodes.Pairwise fun s t => s.start ≤ t.start)
    (hsound : ∀ u ∈ nodes, q u = true → P u)
    (hcomplete : ∀ u, P u → ∃ v ∈ nodes, q v = true ∧ v.start = u.start) : Earliest P t := by
  obtain ⟨hq, before, after, rfl, hbefore⟩ := List.find?_eq_some_iff_append.mp h
  refine ⟨hsound t (by simp) hq, fun u hu => ?_⟩
  obtain ⟨v, hv, hqv, hstart⟩ := hcomplete u hu
  rw [← hstart]
  rcases List.mem_append.mp hv with hv | hv
  · have hnot := hbefore v hv
    simp [hqv] at hnot
  · rcases List.mem_cons.mp hv with rfl | hv
    · exact Nat.le_refl _
    · exact (List.pairwise_cons.mp (List.pairwise_append.mp hsorted).2.1).1 v hv

/-- The nodes of one sort are found again in the other document, with their texts and in their
order. -/
structure Carries (doc other : Document) (P P' : Tree → Prop) (place : Tree → Tree) : Prop where
  kept : ∀ t, P t → P' (place t)
  text : ∀ t, P t → other.text (place t) = doc.text t
  ordered : ∀ s t, P s → P t → s.start < t.start → (place s).start < (place t).start

/-- Moreover nothing else is of the sort in the other document. -/
structure Corresponds (doc other : Document) (P P' : Tree → Prop) (place : Tree → Tree) : Prop
    extends Carries doc other P P' place where
  onto : ∀ u, P' u → ∃ t, P t ∧ u = place t

theorem Corresponds.refl (doc : Document) (P : Tree → Prop) : Corresponds doc doc P P id where
  kept _ h := h
  text _ _ := rfl
  ordered _ _ _ _ h := h
  onto u h := ⟨u, h, rfl⟩

theorem corresponds_of_only {doc other : Document} {P P' : Tree → Prop} {t t' : Tree}
    (h : ∀ u, P u ↔ u = t) (h' : ∀ u, P' u ↔ u = t') (htext : other.text t' = doc.text t) :
    Corresponds doc other P P' fun _ => t' where
  kept _ _ := (h' t').mpr rfl
  text u hu := by rw [(h u).mp hu, htext]
  ordered u v hu hv hlt := by
    rw [(h u).mp hu, (h v).mp hv] at hlt
    exact absurd hlt (Nat.lt_irrefl _)
  onto u hu := ⟨t, (h t).mpr rfl, (h' u).mp hu⟩

section

variable {doc other : Document} {P P' : Tree → Prop} {place : Tree → Tree}

theorem Carries.start_le_iff (h : Carries doc other P P' place) (hdistinct : DistinctStarts P)
    {s t : Tree} (hs : P s) (ht : P t) : (place s).start ≤ (place t).start ↔ s.start ≤ t.start := by
  rcases Nat.lt_trichotomy s.start t.start with hlt | heq | hgt
  · have hplace := h.ordered s t hs ht hlt
    omega
  · obtain rfl := hdistinct s t hs ht heq
    simp
  · have hplace := h.ordered t s ht hs hgt
    omega

/-- Nodes that start later than some node which was there before are never the earliest. -/
theorem Carries.earliest_iff (h : Carries doc other P P' place) (hdistinct : DistinctStarts P)
    (hadded : ∀ u, P' u → (∃ t, P t ∧ u = place t) ∨ ∃ t, P t ∧ (place t).start < u.start)
    {u : Tree} : Earliest P' u ↔ ∃ t, Earliest P t ∧ u = place t := by
  constructor
  · intro ⟨hu, hmin⟩
    rcases hadded u hu with ⟨t, ht, rfl⟩ | ⟨t, ht, hlater⟩
    · refine ⟨t, ⟨ht, fun s hs => ?_⟩, rfl⟩
      exact (h.start_le_iff hdistinct ht hs).mp (hmin _ (h.kept s hs))
    · have hle := hmin _ (h.kept t ht)
      omega
  · intro ⟨t, ht, heq⟩
    refine ⟨heq ▸ h.kept t ht.1, fun v hv => ?_⟩
    have hplace : ∀ s, P s → u.start ≤ (place s).start := fun s hs =>
      heq ▸ (h.start_le_iff hdistinct ht.1 hs).mpr (ht.2 s hs)
    rcases hadded v hv with ⟨s, hs, rfl⟩ | ⟨s, hs, hlater⟩
    · exact hplace s hs
    · have hle := hplace s hs
      omega

theorem Corresponds.earliest_iff (h : Corresponds doc other P P' place)
    (hdistinct : DistinctStarts P) {u : Tree} :
    Earliest P' u ↔ ∃ t, Earliest P t ∧ u = place t :=
  h.toCarries.earliest_iff hdistinct fun u hu => Or.inl (h.onto u hu)

end

end Conventions.Syntax
