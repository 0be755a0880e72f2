import Mathlib.Data.List.Basic
import Conventions.Proofs.Path.Text
import Conventions.Text.Newline

/-!
# Line ends and separators

Only a line feed looks back at the character before it, so a text that is cut at another character
may have its line ends unified before or after the cut. The names of a path are the pieces
between slashes: unified, a path has the same root and as many names.
-/
namespace Conventions

namespace Text

theorem unifyNewlines_of_no_return {cs : List Char} (h : '\r' ∉ cs) : unifyNewlines cs = cs := by
  fun_induction unifyNewlines cs with
  | case1 => rfl
  | case2 cs => exact absurd List.mem_cons_self h
  | case3 c cs _ ih =>
    obtain ⟨hc, hcs⟩ := not_or.mp (mt List.mem_cons.mpr h)
    rw [if_neg (Ne.symm hc), ih hcs]

/-- A character that is followed by no line feed after a return is unified by itself. -/
theorem unifyNewlines_cons {c : Char} {cs : List Char}
    (h : ∀ rest, c = '\r' → cs ≠ '\n' :: rest) :
    unifyNewlines (c :: cs) = (if c = '\r' then '\n' else c) :: unifyNewlines cs := by
  rw [unifyNewlines]
  exact fun rest hc hcs => h rest hc hcs

section
variable {sep : Char}

theorem splitOn_cons_of_ne {c : Char} (hc : c ≠ sep) {cs w : List Char} {ws : List (List Char)}
    (h : splitOn sep cs = w :: ws) : splitOn sep (c :: cs) = (c :: w) :: ws := by
  rw [splitOn, if_neg hc, h]

/-- The first piece starts as the text does. -/
theorem eq_cons_of_splitOn {d : Char} {cs w : List Char} {ws : List (List Char)}
    (h : splitOn sep cs = (d :: w) :: ws) : ∃ rest, cs = d :: rest := by
  cases cs with
  | nil => cases h
  | cons c cs =>
    rw [splitOn] at h
    split at h
    · cases h
    · obtain ⟨v, vs, hv⟩ := List.exists_cons_of_ne_nil (splitOn_ne_nil sep cs)
      rw [hv] at h
      cases h
      exact ⟨cs, rfl⟩

/-- Pieces between separators that end no line are unified one by one. -/
theorem splitOn_unifyNewlines (hreturn : sep ≠ '\r') (hfeed : sep ≠ '\n') (cs : List Char) :
    splitOn sep (unifyNewlines cs) = (splitOn sep cs).map unifyNewlines := by
  fun_induction unifyNewlines cs with
  | case1 => rfl
  | case2 cs ih =>
    obtain ⟨w, ws, hw⟩ := List.exists_cons_of_ne_nil (splitOn_ne_nil sep cs)
    rw [hw, List.map_cons] at ih
    rw [splitOn_cons_of_ne (Ne.symm hfeed) ih,
      splitOn_cons_of_ne (Ne.symm hreturn) (splitOn_cons_of_ne (Ne.symm hfeed) hw), List.map_cons,
      unifyNewlines]
  | case3 c cs hpair ih =>
    obtain ⟨w, ws, hw⟩ := List.exists_cons_of_ne_nil (splitOn_ne_nil sep cs)
    rw [hw, List.map_cons] at ih
    by_cases hc : c = sep
    · subst hc
      rw [if_neg hreturn, splitOn, if_pos rfl, ih, splitOn, if_pos rfl, hw]
      rfl
    · have hunified : (if c = '\r' then '\n' else c) ≠ sep := by
        split
        · exact Ne.symm hfeed
        · exact hc
      -- The piece starts as the text does, so a return in front of it meets no line feed.
      have halone : ∀ rest, c = '\r' → w ≠ '\n' :: rest := by
        rintro rest rfl rfl
        obtain ⟨after, hafter⟩ := eq_cons_of_splitOn hw
        exact hpair after rfl hafter
      rw [splitOn_cons_of_ne hunified ih, splitOn_cons_of_ne hc hw, List.map_cons,
        unifyNewlines_cons halone]

end

theorem unifyNewlines_eq_nil {cs : List Char} : unifyNewlines cs = [] ↔ cs = [] := by
  fun_cases unifyNewlines cs <;> simp

/-- A single character that ends no line comes from itself only. -/
theorem unifyNewlines_eq_singleton {c : Char} (hfeed : c ≠ '\n') {cs : List Char} :
    unifyNewlines cs = [c] ↔ cs = [c] ∧ c ≠ '\r' := by
  fun_cases unifyNewlines cs with
  | case1 => simp
  | case2 cs => simp [Ne.symm hfeed]
  | case3 d cs _ =>
    rw [List.cons.injEq, List.cons.injEq, unifyNewlines_eq_nil]
    by_cases hd : d = '\r'
    · subst hd
      rw [if_pos rfl]
      exact iff_of_false (fun h => hfeed h.1.symm) fun h => h.2 h.1.1.symm
    · rw [if_neg hd]
      exact ⟨fun h => ⟨h, h.1 ▸ hd⟩, And.left⟩

theorem toList_withLineFeeds (s : String) : (withLineFeeds s).toList = unifyNewlines s.toList :=
  String.toList_ofList

theorem withLineFeeds_ofList (cs : List Char) :
    withLineFeeds (String.ofList cs) = String.ofList (unifyNewlines cs) := by
  rw [withLineFeeds, String.toList_ofList]

theorem withLineFeeds_of_no_return {s : String} (h : '\r' ∉ s.toList) : withLineFeeds s = s := by
  rw [withLineFeeds, unifyNewlines_of_no_return h, String.ofList_toList]

theorem not_mem_withLineFeeds (s : String) : '\r' ∉ (withLineFeeds s).toList := by
  rw [toList_withLineFeeds]
  exact not_mem_unifyNewlines _

theorem withLineFeeds_eq_empty {s : String} : withLineFeeds s = "" ↔ s = "" := by
  rw [← String.toList_inj, toList_withLineFeeds, ← String.toList_inj]
  exact unifyNewlines_eq_nil

theorem withLineFeeds_eq_dot {s : String} : withLineFeeds s = "." ↔ s = "." := by
  rw [← String.toList_inj, toList_withLineFeeds, ← String.toList_inj]
  exact (unifyNewlines_eq_singleton (c := '.') (by decide)).trans (and_iff_left (by decide))

end Text

namespace Path

theorem rootOf_unifyNewlines (cs : List Char) : rootOf (Text.unifyNewlines cs) = rootOf cs := by
  have hslashes : (Text.unifyNewlines cs).takeWhile (· == '/') = cs.takeWhile (· == '/') := by
    fun_induction Text.unifyNewlines cs with
    | case1 => rfl
    | case2 cs => rfl
    | case3 c cs _ ih =>
      by_cases hc : c = '\r'
      · subst hc
        rfl
      · rw [if_neg hc, List.takeWhile_cons, List.takeWhile_cons, ih]
  rw [rootOf, rootOf, hslashes]

/-- The path with line feeds for all line ends in its names. -/
def withLineFeeds (p : Path) : Path :=
  { p with names := p.names.map Text.withLineFeeds }

theorem ofString_withLineFeeds (s : String) :
    ofString (Text.withLineFeeds s) = (ofString s).withLineFeeds := by
  have hkept : ∀ pieces : List (List Char), namesOf (pieces.map Text.unifyNewlines) =
      (namesOf pieces).map Text.withLineFeeds := by
    intro pieces
    induction pieces with
    | nil => rfl
    | cons w ws ih =>
      have hsame : (String.ofList (Text.unifyNewlines w) != "" &&
          String.ofList (Text.unifyNewlines w) != ".") =
            (String.ofList w != "" && String.ofList w != ".") := by
        rw [← Text.withLineFeeds_ofList, Bool.eq_iff_iff]
        simp [Text.withLineFeeds_eq_empty, Text.withLineFeeds_eq_dot]
      unfold namesOf at ih ⊢
      rw [List.map_cons, List.map_cons, List.map_cons, List.filter_cons, List.filter_cons, hsame, ih]
      split
      · rw [List.map_cons, Text.withLineFeeds_ofList]
      · rfl
  unfold ofString withLineFeeds
  rw [Text.toList_withLineFeeds, rootOf_unifyNewlines, Text.splitOn_unifyNewlines (by decide)
    (by decide)]
  exact congrArg (Path.mk _) (hkept _)

end Path

end Conventions
