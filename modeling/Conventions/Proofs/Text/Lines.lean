import Mathlib.Data.Bool.AllAny
import Conventions.Proofs.Path.Text

/-!
# Lines of a text

A text is its lines with line feeds between them. Putting a line feed between two texts puts their
lines one after the other, so the lines of a text that is assembled from single lines are these.
-/
namespace Conventions.Text

/-- The characters of a literal are looked at one by one, with `rfl` for the first premise. -/
theorem forall_of_ofList {P : Char → Prop} [DecidablePred P] {s : String} {cs : List Char}
    (hs : s = String.ofList cs) (h : (cs.all fun c => P c) = true) : ∀ c ∈ s.toList, P c := by
  subst hs
  rw [String.toList_ofList]
  exact List.all_iff_forall_prop.mp h

/-- The pieces between the line feeds of a text. -/
def lines (s : String) : List String := (splitOn '\n' s.toList).map String.ofList

theorem lines_append (s t : String) : lines (s ++ "\n" ++ t) = lines s ++ lines t := by
  have htext : (s ++ "\n" ++ t).toList = s.toList ++ '\n' :: t.toList := by simp
  rw [lines, htext, splitOn_append_sep, List.map_append]
  rfl

theorem lines_of_single {s : String} (h : '\n' ∉ s.toList) : lines s = [s] := by
  rw [lines, splitOn_of_not_mem h, List.map_singleton, String.ofList_toList]

/-- The lines of a text that is put together from single lines. -/
theorem lines_intercalate {ls : List String} (hne : ls ≠ []) (h : ∀ l ∈ ls, '\n' ∉ l.toList) :
    lines ("\n".intercalate ls) = ls := by
  induction ls with
  | nil => exact absurd rfl hne
  | cons l ls ih =>
    obtain ⟨hl, hls⟩ := List.forall_mem_cons.mp h
    by_cases hlast : ls = []
    · subst hlast
      rw [String.intercalate_singleton, lines_of_single hl]
    · rw [String.intercalate_cons_of_ne_nil hlast, lines_append, lines_of_single hl,
        ih hlast hls, List.singleton_append]

/-- A text is its lines put together. -/
theorem intercalate_lines (s : String) : "\n".intercalate (lines s) = s := by
  have hpieces : (lines s).map String.toList = List.splitOn '\n' s.toList := by
    rw [lines, splitOn_eq, List.map_map]
    exact List.map_id'' (fun _ => String.toList_ofList) _
  rw [← String.toList_inj, String.toList_intercalate, hpieces]
  exact List.intercalate_splitOn _

/-- Where a line stands: at the start or behind a line feed, and up to the next one. -/
theorem exists_of_mem_lines {s l : String} (h : l ∈ lines s) :
    ∃ before after, s = before ++ (l ++ after) ∧ (before = "" ∨ ∃ b, before = b ++ "\n") ∧
      (after = "" ∨ ∃ a, after = "\n" ++ a) := by
  obtain ⟨front, back, hlines⟩ := List.append_of_mem h
  have htail : ∃ after, "\n".intercalate (l :: back) = l ++ after ∧
      (after = "" ∨ ∃ a, after = "\n" ++ a) := by
    by_cases hback : back = []
    · exact ⟨"", by simp [hback], Or.inl rfl⟩
    · refine ⟨"\n" ++ "\n".intercalate back, ?_, Or.inr ⟨_, rfl⟩⟩
      rw [String.intercalate_cons_of_ne_nil hback, String.append_assoc]
  obtain ⟨after, htail, hafter⟩ := htail
  have htext := intercalate_lines s
  rw [hlines] at htext
  by_cases hfront : front = []
  · refine ⟨"", after, ?_, Or.inl rfl, hafter⟩
    rw [← htext, hfront, List.nil_append, htail, String.empty_append]
  · refine ⟨"\n".intercalate front ++ "\n", after, ?_, Or.inr ⟨_, rfl⟩, hafter⟩
    rw [← htext, String.intercalate_append_of_ne_nil hfront (List.cons_ne_nil _ _), htail]

section
variable {α : Type} {mark : α} {xs ys zs ws : List α}

/-- What stands before the first of a mark, and what after it. -/
theorem eq_of_append_mark (hx : mark ∉ xs) (hy : mark ∉ ys)
    (h : xs ++ mark :: zs = ys ++ mark :: ws) : xs = ys ∧ zs = ws := by
  rcases List.append_eq_append_iff.mp h with ⟨mid, rfl, hmid⟩ | ⟨mid, rfl, hmid⟩
  · cases mid with
    | nil => exact ⟨(List.append_nil xs).symm, (List.cons.inj hmid).2⟩
    | cons m mid =>
      obtain ⟨rfl, -⟩ := List.cons.inj hmid
      exact absurd (List.mem_append_right xs List.mem_cons_self) hy
  · cases mid with
    | nil => exact ⟨List.append_nil ys, (List.cons.inj hmid).2.symm⟩
    | cons m mid =>
      obtain ⟨rfl, -⟩ := List.cons.inj hmid
      exact absurd (List.mem_append_right ys List.mem_cons_self) hx

/-- What stands before the last of a mark, and what after it. -/
theorem eq_of_append_last_mark (hz : mark ∉ zs) (hw : mark ∉ ws)
    (h : xs ++ mark :: zs = ys ++ mark :: ws) : xs = ys ∧ zs = ws := by
  have hreversed := congrArg List.reverse h
  simp only [List.reverse_append, List.reverse_cons, List.append_assoc, List.singleton_append]
    at hreversed
  obtain ⟨hback, hfront⟩ := eq_of_append_mark (mt List.mem_reverse.mp hz)
    (mt List.mem_reverse.mp hw) hreversed
  exact ⟨List.reverse_inj.mp hfront, List.reverse_inj.mp hback⟩

end

end Conventions.Text
