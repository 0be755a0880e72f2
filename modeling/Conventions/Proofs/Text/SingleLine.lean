import Conventions.Number.TwoPlaces
import Conventions.Proofs.Text.LetterCase
import Conventions.Proofs.Text.Lines
import Conventions.Text.Blank
import Conventions.Text.Lowercase

/-!
# Texts of one line

A text without a line feed is one line. It stays one when it is trimmed, put into lower case or
put together with others, and numbers are written on one line.
-/
namespace Conventions.Text

/-- No line feed breaks the text. -/
def SingleLine (s : String) : Prop := '\n' ∉ s.toList

instance (s : String) : Decidable (SingleLine s) :=
  inferInstanceAs (Decidable ('\n' ∉ s.toList))

/-- For a literal, with `rfl` for the first premise. -/
theorem singleLine_of_ofList {s : String} {cs : List Char} (hs : s = String.ofList cs)
    (h : '\n' ∉ cs) : SingleLine s := by
  subst hs
  rwa [SingleLine, String.toList_ofList]

theorem singleLine_append {s t : String} :
    SingleLine (s ++ t) ↔ SingleLine s ∧ SingleLine t := by
  unfold SingleLine
  rw [String.toList_append, List.mem_append, not_or]

theorem singleLine_intercalate {sep : String} (hsep : SingleLine sep) {ss : List String}
    (h : ∀ s ∈ ss, SingleLine s) : SingleLine (sep.intercalate ss) := by
  induction ss with
  | nil => exact singleLine_of_ofList rfl List.not_mem_nil
  | cons s ss ih =>
    obtain ⟨hs, hss⟩ := List.forall_mem_cons.mp h
    by_cases hlast : ss = []
    · rwa [hlast, String.intercalate_singleton]
    · rw [String.intercalate_cons_of_ne_nil hlast]
      exact singleLine_append.mpr ⟨singleLine_append.mpr ⟨hs, hsep⟩, ih hss⟩

theorem mem_trimEndBy {p : Char → Bool} {cs : List Char} {c : Char} (h : c ∈ trimEndBy p cs) :
    c ∈ cs :=
  List.mem_reverse.mp ((List.dropWhile_sublist p).mem (List.mem_reverse.mp h))

theorem singleLine_stripped {s : String} (h : SingleLine s) : SingleLine (stripped s) :=
  singleLine_of_ofList rfl fun hmem => h ((List.dropWhile_sublist _).mem (mem_trimEndBy hmem))

theorem eq_of_ofNat_eq_newline {n : Nat} (h : Char.ofNat n = '\n') : n = 10 := by
  by_cases hn : n.isValidChar
  · rw [Char.ofNat, dif_pos hn] at h
    exact congrArg Char.toNat h
  · rw [Char.ofNat, dif_neg hn] at h
    exact absurd h (by decide)

/-- No other character has a line feed as its lower-case form: the table starts its forms behind
the control characters. -/
theorem lowerChar_eq_newline {c : Char} (h : lowerChar c = '\n') : c = '\n' := by
  have hforms : ∀ run ∈ lowercaseRuns, 10 < run.2.2.2 := by decide +kernel
  unfold lowerChar at h
  split at h
  next => exact (toLower_eq_iff rfl).mp h
  next =>
    split at h
    next first last step form hrun =>
      have hform := hforms _ (List.mem_of_find?_eq_some hrun)
      have hvalue := eq_of_ofNat_eq_newline h
      dsimp only at hform
      omega
    next => exact h

theorem newline_mem_lowerAfter {before cs : List Char} (h : '\n' ∈ lowerAfter before cs) :
    '\n' ∈ cs := by
  induction cs generalizing before with
  | nil => exact h
  | cons c cs ih =>
    rw [lowerAfter] at h
    rcases List.mem_append.mp h with h | h
    · split_ifs at h
      · exact absurd h (by decide)
      · exact absurd h (by decide)
      · exact absurd h (by decide)
      · rw [lowerChar_eq_newline (List.mem_singleton.mp h).symm]
        exact List.mem_cons_self
    · exact List.mem_cons_of_mem _ (ih h)

theorem singleLine_lower {s : String} (h : SingleLine s) : SingleLine (lower s) :=
  singleLine_of_ofList rfl fun hmem => h (newline_mem_lowerAfter hmem)

/-- A text whose line feeds are escaped is one line, whatever it is. -/
theorem newline_not_mem_escapeNewlines (cs : List Char) : '\n' ∉ escapeNewlines cs := by
  intro h
  obtain ⟨c, -, hc⟩ := List.mem_flatMap.mp h
  split_ifs at hc with heq
  · exact absurd hc (by decide)
  · exact heq (List.mem_singleton.mp hc).symm

theorem newline_not_mem_toDigits (n : Nat) : '\n' ∉ Nat.toDigits 10 n := fun h =>
  absurd (Nat.isDigit_of_mem_toDigits (by decide) (by decide) h) (by decide)

theorem singleLine_natToString (n : Nat) : SingleLine (toString n) := by
  show '\n' ∉ n.repr.toList
  rw [Nat.toList_repr]
  exact newline_not_mem_toDigits n

theorem singleLine_intToString (n : Int) : SingleLine (toString n) := by
  cases n with
  | ofNat m => exact singleLine_natToString m
  | negSucc m =>
    exact singleLine_append.mpr ⟨by decide, singleLine_natToString (m + 1)⟩

theorem singleLine_twoPlaces (x : Float) : SingleLine (Number.twoPlaces x) := by
  have hdigit : ∀ n, n < 10 → '\n' ≠ Nat.digitChar n := by decide
  unfold Number.twoPlaces
  split
  next => decide
  next negative _ => cases negative <;> decide
  next negative _ _ _ =>
    dsimp only
    refine singleLine_append.mpr ⟨singleLine_append.mpr ⟨singleLine_append.mpr
      ⟨by cases negative <;> decide, singleLine_natToString _⟩, by decide⟩, ?_⟩
    refine singleLine_of_ofList rfl fun h => ?_
    rcases List.mem_cons.mp h with h | h
    · exact hdigit _ (Nat.mod_lt _ (by decide)) h
    · exact hdigit _ (Nat.mod_lt _ (by decide)) (List.mem_singleton.mp h)

end Conventions.Text
