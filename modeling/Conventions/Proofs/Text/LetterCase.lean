import Mathlib.Data.List.Basic
import Conventions.Text.Lowercase

/-!
# The case of ASCII letters

Putting ASCII letters into lower case moves only capital letters, and these to small letters. So it
changes neither what is a letter or digit nor where a mark stands, and the full lower case of a text
is the same before and after it: of its three rules, the one for a final sigma looks at the
neighbours of a character, but only at whether they carry case.
-/
namespace Conventions.Text

theorem toLower_of_not_upper {c : Char} (h : c.isUpper = false) : c.toLower = c :=
  dif_neg (of_decide_eq_false h)

theorem toNat_lt_of_isUpper {c : Char} (h : c.isUpper = true) : c.toNat < 0x80 := by
  obtain ⟨-, hle⟩ := of_decide_eq_true h
  have hlast : 'Z'.val.toNat = 90 := rfl
  rw [UInt32.le_iff_toNat_le] at hle
  show c.val.toNat < 0x80
  omega

/-- What holds of every capital letter is looked up one by one. -/
theorem of_isUpper {P : Char → Prop}
    (h : ∀ n < 0x80, (Char.ofNat n).isUpper = true → P (Char.ofNat n)) {c : Char}
    (hc : c.isUpper = true) : P c := by
  have hfound := h c.toNat (toNat_lt_of_isUpper hc)
  rw [Char.ofNat_toNat] at hfound
  exact hfound hc

theorem isLower_toLower {c : Char} (h : c.isUpper = true) : c.toLower.isLower = true :=
  of_isUpper (P := fun c => c.toLower.isLower = true) (by decide) h

/-- What is the same for every capital letter and its small one does not depend on case. -/
theorem apply_toLower {α : Type} {f : Char → α}
    (h : ∀ n < 0x80, (Char.ofNat n).isUpper = true →
      f (Char.ofNat n).toLower = f (Char.ofNat n)) (c : Char) : f c.toLower = f c := by
  cases hc : c.isUpper with
  | false => rw [toLower_of_not_upper hc]
  | true => exact of_isUpper (P := fun c => f c.toLower = f c) h hc

theorem isAlphanum_toLower (c : Char) : c.toLower.isAlphanum = c.isAlphanum :=
  apply_toLower (by decide) c

/-- Only a letter becomes a letter. -/
theorem toLower_eq_iff {c mark : Char} (hmark : mark.isAlpha = false) :
    c.toLower = mark ↔ c = mark := by
  obtain ⟨hnotUpper, hnotLower⟩ := Bool.or_eq_false_iff.mp hmark
  cases h : c.isUpper with
  | false => rw [toLower_of_not_upper h]
  | true =>
    refine iff_of_false ?_ ?_
    · rintro rfl
      exact absurd (isLower_toLower h) (by simp [hnotLower])
    · rintro rfl
      exact absurd h (by simp [hnotUpper])

theorem lowerChar_toLower (c : Char) : lowerChar c.toLower = lowerChar c :=
  apply_toLower (by decide) c

theorem casedNext_toLower (cs : List Char) : casedNext (cs.map Char.toLower) = casedNext cs := by
  have hignorable : (fun c => inRanges caseIgnorableRanges c.toNat) ∘ Char.toLower =
      fun c => inRanges caseIgnorableRanges c.toNat :=
    funext fun c => apply_toLower (f := fun c => inRanges caseIgnorableRanges c.toNat)
      (by decide +kernel) c
  have hcased : ∀ c : Char, inRanges casedRanges c.toLower.toNat = inRanges casedRanges c.toNat :=
    apply_toLower (f := fun c => inRanges casedRanges c.toNat) (by decide +kernel)
  rw [casedNext, casedNext, List.dropWhile_map, hignorable]
  cases cs.dropWhile fun c => inRanges caseIgnorableRanges c.toNat with
  | nil => rfl
  | cons c rest => exact hcased c

theorem lowerAfter_toLower (before cs : List Char) :
    lowerAfter (before.map Char.toLower) (cs.map Char.toLower) = lowerAfter before cs := by
  induction cs generalizing before with
  | nil => rfl
  | cons c cs ih =>
    have hdotted : c.toLower = '\u0130' ↔ c = '\u0130' := toLower_eq_iff rfl
    have hsigma : c.toLower = '\u03A3' ↔ c = '\u03A3' := toLower_eq_iff rfl
    rw [List.map_cons, lowerAfter, lowerAfter, ← List.map_cons, ih]
    simp only [hdotted, hsigma, casedNext_toLower, lowerChar_toLower]

theorem toList_toLower (s : String) : s.toLower.toList = s.toList.map Char.toLower :=
  String.toList_map

theorem lower_toLower (s : String) : lower s.toLower = lower s := by
  rw [lower, lower, toList_toLower]
  exact congrArg String.ofList (lowerAfter_toLower [] s.toList)

end Conventions.Text
