import Mathlib.Data.List.Infix
import Conventions.Text.Search

/-!
# Occurrence in texts that are put together

A text that stands in one that was put together from parts stands in a part or across a separator.
It cannot stand across one whose first character it does not have, unless it begins inside the
separator, and so two conditions on characters rule out whatever the parts may be.
-/
namespace Conventions.Text

section

variable {α : Type} {mark : α} {needle xs ys : List α}

theorem prefix_append_mark_iff (h : mark ∉ needle) :
    needle <+: xs ++ mark :: ys ↔ needle <+: xs := by
  refine ⟨?_, fun hprefix => hprefix.trans (List.prefix_append _ _)⟩
  rintro ⟨rest, hrest⟩
  rcases List.append_eq_append_iff.mp hrest with ⟨more, rfl, -⟩ | ⟨beyond, rfl, hbeyond⟩
  · exact List.prefix_append _ _
  · cases beyond with
    | nil => rw [List.append_nil]
    | cons m beyond =>
      obtain ⟨rfl, -⟩ := List.cons.inj hbeyond
      exact absurd (List.mem_append_right xs List.mem_cons_self) h

/-- What does not have the mark stands before it or after it. -/
theorem infix_append_mark_iff (h : mark ∉ needle) :
    needle <:+: xs ++ mark :: ys ↔ needle <:+: xs ∨ needle <:+: ys := by
  induction xs with
  | nil =>
    have hprefix : needle <+: [] ++ mark :: ys ↔ needle <+: [] := prefix_append_mark_iff h
    rw [List.nil_append] at hprefix ⊢
    rw [List.infix_cons_iff, hprefix, List.prefix_nil, List.infix_nil]
  | cons x xs ih =>
    have hprefix : needle <+: (x :: xs) ++ mark :: ys ↔ needle <+: x :: xs :=
      prefix_append_mark_iff h
    rw [List.cons_append] at hprefix ⊢
    rw [List.infix_cons_iff, hprefix, ih, ← or_assoc, ← List.infix_cons_iff]

/-- What begins with none of the first elements stands behind them. -/
theorem infix_append_iff_of_head {c : α} (hc : needle.head? = some c) (h : c ∉ xs) :
    needle <:+: xs ++ ys ↔ needle <:+: ys := by
  induction xs with
  | nil => rfl
  | cons x xs ih =>
    obtain ⟨hx, hxs⟩ := not_or.mp (mt List.mem_cons.mpr h)
    have hprefix : ¬needle <+: x :: (xs ++ ys) := by
      rintro ⟨rest, hrest⟩
      obtain ⟨more, rfl⟩ := List.head?_eq_some_iff.mp hc
      exact hx (List.cons.inj hrest).1
    rw [List.cons_append, List.infix_cons_iff, ih hxs, or_iff_right hprefix]

end

/-- The text begins with no character of the separator and lacks the first character of it. -/
structure Apart (needle sep : String) : Prop where
  first : ∃ c, needle.toList.head? = some c ∧ c ∉ sep.toList
  mark : ∃ m, sep.toList.head? = some m ∧ m ∉ needle.toList

theorem apart_iff {needle sep : String} : Apart needle sep ↔
    needle.toList.head?.any (fun c => c ∉ sep.toList) = true ∧
      sep.toList.head?.any (fun m => m ∉ needle.toList) = true := by
  simp only [Option.any_eq_true, decide_eq_true_eq]
  exact ⟨fun h => ⟨h.first, h.mark⟩, fun h => ⟨h.1, h.2⟩⟩

instance (needle sep : String) : Decidable (Apart needle sep) := decidable_of_iff _ apart_iff.symm

namespace Apart

variable {needle sep : String}

theorem infix_append_iff (h : Apart needle sep) (s t : String) :
    needle.toList <:+: (s ++ sep ++ t).toList ↔
      needle.toList <:+: s.toList ∨ needle.toList <:+: t.toList := by
  obtain ⟨c, hc, hfirst⟩ := h.first
  obtain ⟨m, hm, hmark⟩ := h.mark
  obtain ⟨more, hsep⟩ := List.head?_eq_some_iff.mp hm
  rw [hsep] at hfirst
  have htext : (s ++ sep ++ t).toList = s.toList ++ m :: (more ++ t.toList) := by
    rw [String.toList_append, String.toList_append, hsep, List.append_assoc, List.cons_append]
  rw [htext, infix_append_mark_iff hmark,
    infix_append_iff_of_head hc (mt (List.mem_cons_of_mem m) hfirst)]

/-- Putting texts together neither makes an occurrence nor breaks one. -/
theorem within_intercalate_iff (h : Apart needle sep) {parts : List String} :
    within needle (sep.intercalate parts) = true ↔
      ∃ part ∈ parts, needle.toList <:+: part.toList := by
  rw [within, occurs_iff]
  induction parts with
  | nil =>
    obtain ⟨c, hc, -⟩ := h.first
    refine iff_of_false (fun hin => ?_) (by rintro ⟨_, hpart, -⟩; cases hpart)
    rw [List.infix_nil.mp hin] at hc
    cases hc
  | cons part parts ih =>
    rw [List.exists_mem_cons_iff]
    by_cases hlast : parts = []
    · rw [hlast, String.intercalate_singleton]
      simp
    · rw [String.intercalate_cons_of_ne_nil hlast, h.infix_append_iff, ih]

end Apart

end Conventions.Text
