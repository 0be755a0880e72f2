import Mathlib.Data.List.Induction
import Conventions.Syntax.Query

/-!
# Collecting captures

A query has matches anywhere in a document, and each match binds names to nodes. Collecting the
bindings drops some of them, but of those with one name and one range the first is kept. So what is
captured has been bound, and what is bound is captured, if not as the same node, then as one with
the same text.
-/
namespace Conventions.Syntax

theorem mem_matches_iff {doc : Document} {query : Query} {m : List Binding} :
    m ∈ query.matches doc ↔
      ∃ t ∈ doc.root.nodes, ∃ rule ∈ query, m ∈ rule.matchesAt doc t := by
  simp only [Query.matches, List.mem_flatMap]

theorem firstCaptures_concat (bindings : List Binding) (b : Binding) :
    firstCaptures (bindings ++ [b]) =
      if (firstCaptures bindings).any (sameCapture b) then firstCaptures bindings
      else firstCaptures bindings ++ [b] :=
  List.foldl_append ..

theorem sameCapture_self (b : Binding) : sameCapture b b = true := by
  simp [sameCapture]

theorem name_eq_of_sameCapture {a b : Binding} (h : sameCapture a b = true) : a.1 = b.1 := by
  simp only [sameCapture, Bool.and_eq_true, beq_iff_eq] at h
  exact h.1.1

theorem text_eq_of_sameCapture {a b : Binding} (h : sameCapture a b = true) (doc : Document) :
    doc.text a.2 = doc.text b.2 := by
  simp only [sameCapture, Bool.and_eq_true, beq_iff_eq] at h
  rw [Document.text, Document.text, h.1.2, h.2]

theorem mem_of_mem_firstCaptures {bindings : List Binding} {b : Binding}
    (h : b ∈ firstCaptures bindings) : b ∈ bindings := by
  induction bindings using List.reverseRecOn with
  | nil => cases h
  | append_singleton bindings a ih =>
    rw [firstCaptures_concat] at h
    split at h
    · exact List.mem_append_left _ (ih h)
    · rcases List.mem_append.mp h with h | h
      · exact List.mem_append_left _ (ih h)
      · exact List.mem_append_right _ h

/-- Of equal bindings one is kept. -/
theorem exists_sameCapture {bindings : List Binding} {b : Binding} (h : b ∈ bindings) :
    ∃ a ∈ firstCaptures bindings, sameCapture b a = true := by
  induction bindings using List.reverseRecOn with
  | nil => cases h
  | append_singleton bindings c ih =>
    rw [firstCaptures_concat]
    rcases List.mem_append.mp h with h | h
    · obtain ⟨a, ha, hsame⟩ := ih h
      split
      · exact ⟨a, ha, hsame⟩
      · exact ⟨a, List.mem_append_left _ ha, hsame⟩
    · obtain rfl := List.mem_singleton.mp h
      split
      next hseen => exact List.any_eq_true.mp hseen
      next => exact ⟨b, List.mem_append_right _ (List.mem_singleton_self b), sameCapture_self b⟩

section

variable {doc : Document} {query : Query}

theorem mem_captured {b : Binding} : b ∈ captured doc query ↔
    b ∈ firstCaptures (query.matches doc).flatten :=
  (List.mergeSort_perm _ _).mem_iff

/-- The name is captured somewhere in the document. -/
def Captures (doc : Document) (query : Query) (name : String) : Prop :=
  ∃ b ∈ captured doc query, b.1 = name

/-- The texts of a name are those of the nodes that it is bound to. -/
theorem mem_capturedTexts {name x : String} : x ∈ capturedTexts doc query name ↔
    ∃ m ∈ query.matches doc, ∃ b ∈ m, b.1 = name ∧ doc.text b.2 = x := by
  simp only [capturedTexts, List.mem_map, List.mem_filter, beq_iff_eq]
  constructor
  · rintro ⟨b, ⟨hb, hname⟩, hx⟩
    obtain ⟨m, hm, hb⟩ := List.mem_flatten.mp (mem_of_mem_firstCaptures (mem_captured.mp hb))
    exact ⟨m, hm, b, hb, hname, hx⟩
  · rintro ⟨m, hm, b, hb, rfl, rfl⟩
    obtain ⟨a, ha, hsame⟩ := exists_sameCapture (List.mem_flatten.mpr ⟨m, hm, hb⟩)
    exact ⟨a, ⟨mem_captured.mpr ha, (name_eq_of_sameCapture hsame).symm⟩,
      (text_eq_of_sameCapture hsame doc).symm⟩

theorem capturedTexts_eq_nil {name : String} :
    capturedTexts doc query name = [] ↔ ¬Captures doc query name := by
  rw [capturedTexts, List.map_eq_nil_iff, List.filter_eq_nil_iff, Captures]
  simp only [beq_iff_eq, not_exists, not_and]

end

end Conventions.Syntax
