import Conventions.Number.Numeral
import Conventions.Proofs.Json.Number

/-!
# Whole numbers read back

A whole number of at most 4300 digits is read from its own text: nothing in the text counts as a
space, the sign and the digits are taken apart where they were put together, and the digits are
those of the number. Other texts of a number, with spaces, underscores or the digits of another
script, are not the subject here.
-/
namespace Conventions

namespace Text

/-- A text without a character of the class is left as it is. -/
theorem trimBy_of_forall {p : Char → Bool} {cs : List Char} (h : ∀ c ∈ cs, p c = false) :
    trimBy p cs = cs := by
  have hkept : ∀ ds : List Char, ds ⊆ cs → ds.dropWhile p = ds := by
    intro ds hds
    refine List.dropWhile_eq_self_iff.mpr fun hl => ?_
    rw [h _ (hds (List.getElem_mem hl))]
    exact Bool.false_ne_true
  rw [trimBy, trimEndBy, hkept cs (List.Subset.refl cs),
    hkept cs.reverse (List.reverse_subset.mpr (List.Subset.refl cs)), List.reverse_reverse]

end Text

namespace Number

open Json (signText)

theorem isSpace_of_isDigit {c : Char} (h : c.isDigit = true) : Text.isSpace c = false := by
  have hnone : ∀ n < 0x3A, 0x30 ≤ n → Text.inRanges Text.spaceRanges n = false := by decide
  obtain ⟨hfirst, hlast⟩ := bounds_of_isDigit h
  exact hnone c.toNat (by omega) hfirst

theorem digitValue?_of_isDigit {c : Char} (h : c.isDigit = true) :
    digitValue? c = some (c.toNat - 0x30) := by
  obtain ⟨hfirst, hlast⟩ := bounds_of_isDigit h
  have hrun : (decide (0x30 ≤ c.toNat) && decide (c.toNat < 0x30 + 10)) = true := by
    rw [Bool.and_eq_true]
    exact ⟨decide_eq_true hfirst, decide_eq_true (by omega)⟩
  -- The run of the ASCII digits is the first one of the table.
  have hfound : (zeroDigits.find? fun z => z ≤ c.toNat && c.toNat < z + 10) = some 0x30 :=
    List.find?_cons_of_pos (p := fun z => z ≤ c.toNat && c.toNat < z + 10) hrun
  rw [digitValue?, hfound]
  rfl

theorem ne_underscore_of_isDigit {c : Char} (h : c.isDigit = true) : c ≠ '_' := by
  rintro rfl
  cases h

theorem digitRun_digits {ds : List Char} (h : ∀ c ∈ ds, c.isDigit = true) :
    digitRun ds = (ds.map fun c => c.toNat - 0x30, []) := by
  induction ds with
  | nil => rfl
  | cons c ds ih =>
    obtain ⟨hc, hds⟩ := List.forall_mem_cons.mp h
    rw [digitRun, digitValue?_of_isDigit hc, ih hds]
    · rfl
    · rintro _ _ rfl
      exact absurd rfl (ne_underscore_of_isDigit hc)

theorem digits_digits {ds : List Char} (h : ∀ c ∈ ds, c.isDigit = true) :
    digits ds = (ds.map fun c => c.toNat - 0x30, []) := by
  rw [digits, digitRun_digits h]
  rintro rest rfl
  exact absurd rfl (ne_underscore_of_isDigit (h '_' List.mem_cons_self))

theorem sign_append (negative : Bool) {c : Char} (hc : c.isDigit = true) (rest : List Char) :
    sign (signText negative ++ c :: rest) = (negative, c :: rest) := by
  cases negative with
  | true => rfl
  | false =>
    unfold sign signText
    split
    next heq => obtain ⟨rfl, -⟩ := List.cons.inj heq; cases hc
    next heq => obtain ⟨rfl, -⟩ := List.cons.inj heq; cases hc
    next => rfl

theorem isSpace_signText_append (negative : Bool) {ds : List Char}
    (h : ∀ c ∈ ds, c.isDigit = true) : ∀ c ∈ signText negative ++ ds, Text.isSpace c = false := by
  intro c hc
  rcases List.mem_append.mp hc with hsign | hdigit
  · cases negative with
    | true => obtain rfl := List.mem_singleton.mp hsign; decide
    | false => cases hsign
  · exact isSpace_of_isDigit (h c hdigit)

/-- A whole number of at most 4300 digits is read from its text. -/
theorem whole?_toString {n : Int} (h : (Nat.toDigits 10 n.natAbs).length ≤ maxDigits) :
    whole? (toString n).toList = .ok n := by
  have hdigits : ∀ c ∈ Nat.toDigits 10 n.natAbs, c.isDigit = true :=
    fun c => Json.isDigit_of_mem_toDigits
  have hsign : sign (signText (decide (n < 0)) ++ Nat.toDigits 10 n.natAbs) =
      (decide (n < 0), Nat.toDigits 10 n.natAbs) := by
    obtain ⟨d, ds, heq, hd⟩ := Json.head_digits Nat.toDigits_ne_nil hdigits []
    rw [List.append_nil] at heq
    rw [heq, sign_append _ hd]
  have hlength : ¬maxDigits < ((Nat.toDigits 10 n.natAbs).map fun c => c.toNat - 0x30).length := by
    rw [List.length_map]
    exact Nat.not_lt.mpr h
  rw [Json.toList_toString, whole?, Text.trimBy_of_forall (isSpace_signText_append _ hdigits),
    hsign]
  dsimp only
  rw [digits_digits hdigits]
  dsimp only
  rw [if_neg (by simp), if_neg hlength, if_neg (by simp),
    Json.ofDigits_toDigits]
  -- The sign and the digits are those of the number.
  by_cases hn : n < 0
  · rw [if_pos (decide_eq_true hn)]
    exact congrArg _ (by omega)
  · rw [if_neg fun htrue => hn (of_decide_eq_true htrue)]
    exact congrArg _ (by omega)

end Number

end Conventions
