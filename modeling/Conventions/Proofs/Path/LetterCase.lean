import Mathlib.Data.List.TakeWhile
import Conventions.Proofs.Text.LetterCase
import Conventions.Path

/-!
# Paths and the case of letters

Neither the slash between names nor the dot before an extension is a letter. So a path whose text is
put into lower case falls into the same parts at the same places, each of them in lower case, and
what the program puts into lower case itself is the same for both.
-/
namespace Conventions

namespace Text

theorem beq_toLower {mark : Char} (hmark : mark.isAlpha = false) (c : Char) :
    (c.toLower == mark) = (c == mark) := by
  rw [Bool.eq_iff_iff, beq_iff_eq, beq_iff_eq, toLower_eq_iff hmark]

theorem splitOn_toLower {sep : Char} (hsep : sep.isAlpha = false) (cs : List Char) :
    splitOn sep (cs.map Char.toLower) = (splitOn sep cs).map (List.map Char.toLower) := by
  induction cs with
  | nil => rfl
  | cons c cs ih =>
    rw [List.map_cons, splitOn, splitOn, ih]
    simp only [toLower_eq_iff hsep]
    split
    · rfl
    · cases splitOn sep cs <;> rfl

/-- Two texts differ in the case of ASCII letters only. -/
theorem toLower_eq_toLower_iff {s t : String} :
    s.toLower = t.toLower ↔ s.toList.map Char.toLower = t.toList.map Char.toLower := by
  rw [← String.toList_inj, toList_toLower, toList_toLower]

theorem ofList_map_toLower (cs : List Char) :
    String.ofList (cs.map Char.toLower) = (String.ofList cs).toLower := by
  rw [← String.toList_inj, toList_toLower, String.toList_ofList, String.toList_ofList]

theorem toLower_eq_mark (mark : Char) (hmark : mark.isAlpha = false) (s : String) :
    s.toLower = String.ofList [mark] ↔ s = String.ofList [mark] := by
  simp only [← String.toList_inj, toList_toLower, String.toList_ofList,
    List.map_eq_singleton_iff, toLower_eq_iff hmark, exists_eq_right]

theorem toLower_eq_empty (s : String) : s.toLower = "" ↔ s = "" := by
  simp only [← String.toList_inj, toList_toLower, String.toList_empty, List.map_eq_nil_iff]

end Text

namespace Path

/-- The path with the ASCII letters of its names in lower case. -/
def lowered (p : Path) : Path :=
  { p with names := p.names.map String.toLower }

theorem rootOf_toLower (cs : List Char) : rootOf (cs.map Char.toLower) = rootOf cs := by
  have hsame : (· == '/') ∘ Char.toLower = (· == '/') := funext (Text.beq_toLower rfl)
  have hslashes : (cs.takeWhile (· == '/')).map Char.toLower = cs.takeWhile (· == '/') := by
    conv_rhs => rw [← List.map_id (cs.takeWhile (· == '/'))]
    refine List.map_congr_left fun c hc => ?_
    have hslash : (c == '/') = true := List.mem_takeWhile_imp (p := (· == '/')) hc
    rw [beq_iff_eq.mp hslash]
    rfl
  rw [rootOf, rootOf, List.takeWhile_map, hsame, hslashes]

theorem ofString_toLower (s : String) : ofString s.toLower = (ofString s).lowered := by
  have hkept : (fun n : String => n != "" && n != ".") ∘ String.toLower =
      fun n => n != "" && n != "." := by
    funext n
    have hdot : n.toLower = "." ↔ n = "." := Text.toLower_eq_mark '.' rfl n
    simp only [Function.comp_apply, bne, BEq.beq, Text.toLower_eq_empty, hdot]
  have hpieces : (Text.splitOn '/' s.toLower.toList).map String.ofList =
      ((Text.splitOn '/' s.toList).map String.ofList).map String.toLower := by
    rw [Text.toList_toLower, Text.splitOn_toLower rfl, List.map_map, List.map_map]
    exact List.map_congr_left fun piece _ => Text.ofList_map_toLower piece
  rw [ofString, hpieces, List.filter_map, hkept, Text.toList_toLower, rootOf_toLower]
  rfl

theorem name_lowered (p : Path) : p.lowered.name = p.name.toLower := by
  rw [name, name, lowered, List.getLast?_map]
  cases p.names.getLast? with
  | none => rw [Option.map_none, Option.getD_none, (Text.toLower_eq_empty "").mpr rfl]
  | some last => rfl

theorem splitName_toLower (name : List Char) :
    splitName (name.map Char.toLower) =
      ((splitName name).1.map Char.toLower, (splitName name).2.map Char.toLower) := by
  have hsame : (· != '.') ∘ Char.toLower = (· != '.') :=
    funext fun c => congrArg not (Text.beq_toLower rfl c)
  simp only [splitName, ← List.map_reverse, List.takeWhile_map, hsame, List.length_map,
    ← List.map_take, List.map_eq_nil_iff]
  split <;> rfl

theorem lowerExtension_lowered (p : Path) : p.lowered.lowerExtension = p.lowerExtension := by
  rw [lowerExtension, lowerExtension, extension, extension, name_lowered, Text.toList_toLower,
    splitName_toLower, Text.ofList_map_toLower, Text.lower_toLower]

end Path

end Conventions
