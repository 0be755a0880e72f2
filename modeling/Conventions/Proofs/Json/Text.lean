import Mathlib.Data.Bool.AllAny
import Mathlib.Tactic.SplitIfs
import Conventions.Json.Printer
import Conventions.Json.Reader

/-!
# Texts read back

A text is written with printable ASCII characters, and quotes and backslashes stand in it only
behind a backslash, so its closing quote is the first quote a reader meets elsewhere. Each character
is read back from what was written for it, alone or from a pair of surrogates.
-/
namespace Conventions.Json

theorem readUnit_hexDigits {n : Nat} (h : n < 0x10000) (rest : List Char) :
    readUnit (Text.hexDigits 4 n ++ rest) = some (n, rest) := by
  have hdigit (k : Nat) : Text.hexValue? (Text.hexDigit (k % 16)) = some (k % 16) :=
    Text.hexValue?_hexDigit (Nat.mod_lt _ (by decide))
  have hvalue : ((n / 16 / 16 / 16 % 16 * 16 + n / 16 / 16 % 16) * 16 + n / 16 % 16) * 16 +
      n % 16 = n := by omega
  show readUnit (Text.hexDigit _ :: Text.hexDigit _ :: Text.hexDigit _ :: Text.hexDigit _ :: rest) =
    _
  simp only [readUnit, hdigit, Option.bind_eq_bind, Option.bind_some, hvalue]

theorem isHighSurrogate_iff {n : Nat} : isHighSurrogate n = true ↔ 0xD800 ≤ n ∧ n ≤ 0xDBFF := by
  simp [isHighSurrogate]

theorem isLowSurrogate_iff {n : Nat} : isLowSurrogate n = true ↔ 0xDC00 ≤ n ∧ n ≤ 0xDFFF := by
  simp [isLowSurrogate]

/-- No character is half of a pair. -/
theorem not_surrogate (c : Char) :
    isHighSurrogate c.toNat = false ∧ isLowSurrogate c.toNat = false := by
  rw [← Bool.not_eq_true, ← Bool.not_eq_true, isHighSurrogate_iff, isLowSurrogate_iff]
  have hvalid : c.toNat < 0xD800 ∨ 0xDFFF < c.toNat ∧ c.toNat < 0x110000 := c.valid
  omega

theorem readEscape_unit (c : Char) (h : c.toNat < 0x10000) (rest : List Char) :
    readEscape ('u' :: (Text.hexDigits 4 c.toNat ++ rest)) = some (c, rest) := by
  obtain ⟨hhigh, hlow⟩ := not_surrogate c
  have hchar : unitChar c.toNat = c := by
    unfold unitChar
    rw [hhigh, hlow]
    exact Char.ofNat_toNat c
  have hread := readUnit_hexDigits h rest
  rw [readEscape, hread]
  simp only [Option.bind_eq_bind, Option.bind_some, hhigh, hchar, Bool.false_eq_true, if_false]
  split
  · rfl
  · rfl

theorem readEscape_pair {high low : Nat} (hhigh : isHighSurrogate high = true)
    (hlow : isLowSurrogate low = true) (rest : List Char) :
    readEscape ('u' :: (Text.hexDigits 4 high ++ (unitEscape low ++ rest))) =
      some (Char.ofNat (0x10000 + (high - 0xD800) * 0x400 + (low - 0xDC00)), rest) := by
  have hhighSize := (isHighSurrogate_iff.mp hhigh).2
  have hlowSize := (isLowSurrogate_iff.mp hlow).2
  have hread := readUnit_hexDigits (n := high) (by omega) (unitEscape low ++ rest)
  have hread' := readUnit_hexDigits (n := low) (by omega) rest
  rw [readEscape, hread]
  simp only [Option.bind_eq_bind, Option.bind_some, unitEscape, List.cons_append, hhigh, if_true,
    hread', hlow]

/-- The two halves of a character past the first 65536 make up the character. -/
theorem surrogates_of_large {c : Char} (h : 0x10000 ≤ c.toNat) :
    isHighSurrogate (0xD800 + (c.toNat - 0x10000) / 0x400) = true ∧
      isLowSurrogate (0xDC00 + (c.toNat - 0x10000) % 0x400) = true ∧
      0x10000 + (0xD800 + (c.toNat - 0x10000) / 0x400 - 0xD800) * 0x400 +
        (0xDC00 + (c.toNat - 0x10000) % 0x400 - 0xDC00) = c.toNat := by
  have hvalid : c.toNat < 0xD800 ∨ 0xDFFF < c.toNat ∧ c.toNat < 0x110000 := c.valid
  rw [isHighSurrogate_iff, isLowSurrogate_iff]
  omega

/-- A character is read back from what is written for it. -/
theorem readString_escapeChar (fuel : Nat) (c : Char) (rest : List Char) :
    readString (fuel + 1) (escapeChar c ++ rest) =
      (readString fuel rest).map fun r => (c :: r.1, r.2) := by
  have hescape {e : List Char} (h : readEscape e = some (c, rest)) :
      readString (fuel + 1) ('\\' :: e) =
        (readString fuel rest).map fun r => (c :: r.1, r.2) := by
    rw [readString, h]
    simp only [Option.bind_eq_bind, Option.bind_some]
    cases readString fuel rest with
    | none => rfl
    | some r => rfl
  unfold escapeChar
  split_ifs with hquote hline hreturn htab hback hform hplain hsmall
  · rcases hquote with rfl | rfl
    · exact hescape rfl
    · exact hescape rfl
  · subst hline
    exact hescape rfl
  · subst hreturn
    exact hescape rfl
  · subst htab
    exact hescape rfl
  · subst hback
    exact hescape rfl
  · subst hform
    exact hescape rfl
  · obtain ⟨hquote, hslash⟩ := not_or.mp hquote
    have hprintable : ¬c.toNat < 0x20 := Nat.not_lt_of_le hplain.1
    rw [List.singleton_append, readString, if_neg hprintable]
    · cases readString fuel rest with
      | none => rfl
      | some r => rfl
    · exact hquote
    · exact hslash
  · exact hescape (readEscape_unit c hsmall rest)
  · obtain ⟨hhigh, hlow, hvalue⟩ := surrogates_of_large (Nat.le_of_not_lt hsmall)
    have hread := readEscape_pair hhigh hlow rest
    rw [hvalue, Char.ofNat_toNat] at hread
    rw [List.append_assoc]
    exact hescape hread

/-- A character of ASCII that is no control character. -/
def Printable (c : Char) : Prop := 0x20 ≤ c.toNat ∧ c.toNat < 0x7F

instance (c : Char) : Decidable (Printable c) := inferInstanceAs (Decidable (_ ∧ _))

theorem printable_unitEscape (n : Nat) : ∀ d ∈ unitEscape n, Printable d := by
  have hdigit : ∀ k < 16, Printable (Text.hexDigit k) := by decide
  have hmod (k : Nat) : Printable (Text.hexDigit (k % 16)) := hdigit _ (Nat.mod_lt _ (by decide))
  intro d hd
  simp only [unitEscape, Text.hexDigits, List.nil_append, List.cons_append, List.mem_cons,
    List.not_mem_nil, or_false] at hd
  rcases hd with rfl | rfl | rfl | rfl | rfl | rfl
  · decide
  · decide
  · exact hmod _
  · exact hmod _
  · exact hmod _
  · exact hmod _

theorem printable_escapeChar (c : Char) : ∀ d ∈ escapeChar c, Printable d := by
  have hchars : ∀ l ∈ ['n', 'r', 't', 'b', 'f', '"', '\\'], Printable l :=
    List.all_iff_forall_prop.mp (by decide)
  have hletter : ∀ l ∈ ['n', 'r', 't', 'b', 'f', '"', '\\'], ∀ d ∈ ['\\', l], Printable d :=
    fun l hl => List.forall_mem_cons.mpr
      ⟨by decide, List.forall_mem_singleton.mpr (hchars l hl)⟩
  unfold escapeChar
  split_ifs with hquote hline hreturn htab hback hform hplain hsmall
  · rcases hquote with rfl | rfl
    · exact hletter '"' (by decide)
    · exact hletter '\\' (by decide)
  · exact hletter 'n' (by decide)
  · exact hletter 'r' (by decide)
  · exact hletter 't' (by decide)
  · exact hletter 'b' (by decide)
  · exact hletter 'f' (by decide)
  · intro d hd
    obtain rfl := List.mem_singleton.mp hd
    exact ⟨hplain.1, Nat.lt_succ_of_le hplain.2⟩
  · exact printable_unitEscape _
  · intro d hd
    rcases List.mem_append.mp hd with hd | hd
    · exact printable_unitEscape _ d hd
    · exact printable_unitEscape _ d hd

theorem printable_printString (s : String) : ∀ d ∈ printString s, Printable d := by
  intro d hd
  simp only [printString, List.cons_append, List.mem_cons, List.mem_append, List.mem_flatMap,
    List.not_mem_nil, or_false] at hd
  rcases hd with rfl | ⟨c, -, hd⟩ | rfl
  · decide
  · exact printable_escapeChar c d hd
  · decide

theorem escapeChar_ne_nil (c : Char) : escapeChar c ≠ [] := by
  unfold escapeChar unitEscape
  split_ifs <;> exact List.cons_ne_nil _ _

theorem length_flatMap_escapeChar (cs : List Char) :
    cs.length ≤ (cs.flatMap escapeChar).length := by
  induction cs with
  | nil => exact Nat.le_refl _
  | cons c cs ih =>
    have hpos := List.length_pos_iff.mpr (escapeChar_ne_nil c)
    rw [List.flatMap_cons, List.length_append, List.length_cons]
    omega

theorem readString_append {cs : List Char} {fuel : Nat} (h : cs.length < fuel) (rest : List Char) :
    readString fuel (cs.flatMap escapeChar ++ '"' :: rest) = some (cs, rest) := by
  induction cs generalizing fuel with
  | nil =>
    obtain ⟨fuel, rfl⟩ := Nat.exists_eq_add_of_lt h
    rfl
  | cons c cs ih =>
    obtain ⟨fuel, rfl⟩ := Nat.exists_eq_succ_of_ne_zero (Nat.ne_of_gt (Nat.zero_lt_of_lt h))
    rw [List.flatMap_cons, List.append_assoc, readString_escapeChar,
      ih (Nat.lt_of_succ_lt_succ h)]
    rfl

/-- A text is read back up to its closing quote. -/
theorem readString_printString (s : String) (rest : List Char) :
    ∃ cs, printString s ++ rest = '"' :: cs ∧
      readString (cs.length + 1) cs = some (s.toList, rest) := by
  refine ⟨s.toList.flatMap escapeChar ++ '"' :: rest, by simp [printString], ?_⟩
  have hlength := length_flatMap_escapeChar s.toList
  refine readString_append ?_ rest
  rw [List.length_append]
  omega

end Conventions.Json
