import Mathlib.Data.Bool.AllAny
import Mathlib.Data.List.TakeWhile
import Mathlib.Tactic.NormNum.Pow
import Conventions.Proofs.Number.Shortest

/-!
# How decimals are written

A written number is a lexeme: whole digits, digits after a point, and a power of ten. Both layouts
are lexemes of the decimal they lay out: the zeros that fill it up and the place of the point cancel
against the exponent, so nothing of its value is lost on paper.
-/
namespace Conventions.Number

@[ext]
structure Lexeme where
  whole : List Char
  fraction : List Char
  /-- Whether the exponent is negative, and its digits. -/
  power : Option (Bool × List Char)

namespace Lexeme

def fractionText (l : Lexeme) : List Char :=
  match l.fraction with
  | [] => []
  | ds => '.' :: ds

def powerText (l : Lexeme) : List Char :=
  match l.power with
  | none => []
  | some (negative, ds) => 'e' :: (if negative then '-' else '+') :: ds

def text (l : Lexeme) : List Char := l.whole ++ l.fractionText ++ l.powerText

/-- The number that digits stand for. -/
def count (ds : List Char) : Nat := Nat.ofDigitChars 10 ds 0

def exponent (l : Lexeme) : Int :=
  match l.power with
  | none => 0
  | some (negative, ds) => if negative then -count ds else count ds

def toRat (l : Lexeme) : ℚ :=
  count (l.whole ++ l.fraction) * (10 : ℚ) ^ (l.exponent - l.fraction.length)

/-- The digits of a whole number without needless zeros in front. -/
def Plain (ds : List Char) : Prop := ds = ['0'] ∨ ds ≠ [] ∧ ds.head? ≠ some '0'

/-- A lexeme that is read as one that is no whole number. -/
structure WellFormed (l : Lexeme) : Prop where
  plain : Plain l.whole
  digits : ∀ c ∈ l.whole ++ l.fraction, c.isDigit = true
  power : ∀ negative ds, l.power = some (negative, ds) → ds ≠ [] ∧ ∀ c ∈ ds, c.isDigit = true
  real : l.fraction ≠ [] ∨ l.power ≠ none

end Lexeme

open Lexeme (count Plain)

theorem count_append (ds es : List Char) :
    count (ds ++ es) = 10 ^ es.length * count ds + count es := by
  unfold count
  rw [Nat.ofDigitChars_append, Nat.ofDigitChars_eq_ofDigitChars_zero]

theorem count_zeros (n : Nat) : count (List.replicate n '0') = 0 := by
  simp [count]

theorem count_toDigits (n : Nat) : count (Nat.toDigits 10 n) = n :=
  Nat.ofDigitChars_ten_toDigits

theorem bounds_of_isDigit {c : Char} (h : c.isDigit = true) : 0x30 ≤ c.toNat ∧ c.toNat ≤ 0x39 := by
  obtain ⟨hfirst, hlast⟩ := (Bool.and_eq_true _ _).mp h
  have hfirst := UInt32.le_iff_toNat_le.mp (of_decide_eq_true hfirst)
  have hlast := UInt32.le_iff_toNat_le.mp (of_decide_eq_true hlast)
  exact ⟨hfirst, hlast⟩

theorem isDigit_of_mem_zeros {n : Nat} {c : Char} (h : c ∈ List.replicate n '0') :
    c.isDigit = true := by
  obtain rfl := List.eq_of_mem_replicate h
  rfl

theorem head_toDigits {n : Nat} (h : 0 < n) : (Nat.toDigits 10 n).head? ≠ some '0' := by
  induction n using Nat.strong_induction_on with
  | h n ih =>
    by_cases hsmall : n < 10
    · have hfirst : ∀ d < 10, 0 < d → [Nat.digitChar d].head? ≠ some '0' := by decide
      rw [Nat.toDigits_of_lt_base hsmall]
      exact hfirst n hsmall h
    · rw [Nat.toDigits_of_base_le (by decide) (by omega),
        List.head?_append_of_ne_nil _ Nat.toDigits_ne_nil]
      exact ih (n / 10) (by omega) (by omega)

/-- Digits of a number, the first of which is not zero. -/
structure Significant (ds : List Char) : Prop where
  digits : ∀ c ∈ ds, c.isDigit = true
  nonempty : ds ≠ []
  head : ds.head? ≠ some '0'

def scientificLexeme (ds : List Char) (e : Int) : Lexeme where
  whole := ds.take 1
  fraction := ds.drop 1
  power :=
    let power := Nat.toDigits 10 e.natAbs
    some (decide (e < 0), List.replicate (2 - power.length) '0' ++ power)

def positionalLexeme (ds : List Char) (e : Int) : Lexeme :=
  if e < 0 then ⟨['0'], List.replicate (-e - 1).toNat '0' ++ ds, none⟩
  else
    let whole := e.toNat + 1
    let padded := ds ++ List.replicate (whole - ds.length) '0'
    ⟨padded.take whole, if padded.length ≤ whole then ['0'] else padded.drop whole, none⟩

def layoutLexeme (ds : List Char) (e : Int) : Lexeme :=
  if e < -4 ∨ 16 ≤ e then scientificLexeme ds e else positionalLexeme ds e

theorem Lexeme.fractionText_eq {l : Lexeme} (h : l.fraction ≠ []) :
    l.fractionText = '.' :: l.fraction := by
  unfold Lexeme.fractionText
  split
  next hnone => exact absurd hnone h
  next => rfl

theorem text_scientificLexeme (ds : List Char) (e : Int) :
    (scientificLexeme ds e).text = scientific ds e := by
  unfold Lexeme.text Lexeme.fractionText Lexeme.powerText scientific scientificLexeme
  cases ds.drop 1 with
  | nil => simp
  | cons d ds => simp

theorem fraction_positionalLexeme {ds : List Char} (h : ds ≠ []) (e : Int) :
    (positionalLexeme ds e).fraction ≠ [] := by
  unfold positionalLexeme
  split
  · exact List.append_ne_nil_of_right_ne_nil _ h
  · dsimp only
    split
    · exact List.cons_ne_nil _ _
    next hlong => exact mt List.drop_eq_nil_iff.mp hlong

theorem power_positionalLexeme (ds : List Char) (e : Int) :
    (positionalLexeme ds e).power = none := by
  unfold positionalLexeme
  split <;> rfl

theorem text_positionalLexeme {ds : List Char} (h : ds ≠ []) (e : Int) :
    (positionalLexeme ds e).text = positional ds e := by
  rw [Lexeme.text, Lexeme.fractionText_eq (fraction_positionalLexeme h e), Lexeme.powerText,
    power_positionalLexeme, List.append_nil]
  unfold positionalLexeme positional
  split <;> rfl

theorem text_layoutLexeme {ds : List Char} (h : ds ≠ []) (e : Int) :
    (layoutLexeme ds e).text = layout ds e := by
  unfold layoutLexeme layout
  split
  · exact text_scientificLexeme ds e
  · exact text_positionalLexeme h e

/-- Digits with the place of the first: what they stand for. -/
def placed (ds : List Char) (e : Int) : ℚ := count ds * (10 : ℚ) ^ (e - ds.length + 1)

/-- A lexeme stands for the digits `ds` with the first at `10 ^ e` if it has the same digits up to
zeros at the end, and its exponent makes up for these and for the digits after the point. -/
theorem Lexeme.toRat_of_digits {l : Lexeme} {ds : List Char} {e : Int} {n : Nat}
    (hdigits : count (l.whole ++ l.fraction) = 10 ^ n * count ds)
    (hexponent : n + l.exponent - l.fraction.length = e - ds.length + 1) :
    l.toRat = placed ds e := by
  have hten : (10 : ℚ) ≠ 0 := by norm_num
  unfold Lexeme.toRat placed
  rw [hdigits, ← hexponent, add_sub_assoc, zpow_add₀ hten, zpow_natCast]
  push_cast
  ring

theorem toRat_scientificLexeme {ds : List Char} (h : ds ≠ []) (e : Int) :
    (scientificLexeme ds e).toRat = placed ds e := by
  have hpower : (scientificLexeme ds e).exponent = e := by
    unfold Lexeme.exponent scientificLexeme
    simp only [count_append, count_zeros, count_toDigits, mul_zero, zero_add, decide_eq_true_eq]
    split <;> omega
  have hpos := List.length_pos_of_ne_nil h
  refine Lexeme.toRat_of_digits (n := 0) ?_ ?_
  · rw [pow_zero, one_mul]
    exact congrArg count (List.take_append_drop 1 ds)
  · rw [hpower]
    simp only [scientificLexeme, List.length_drop]
    omega

theorem toRat_positionalLexeme (ds : List Char) (e : Int) :
    (positionalLexeme ds e).toRat = placed ds e := by
  unfold positionalLexeme
  split
  next he =>
    refine Lexeme.toRat_of_digits (n := 0) ?_ ?_
    · have hzeros : ['0'] ++ (List.replicate (-e - 1).toNat '0' ++ ds) =
          List.replicate ((-e - 1).toNat + 1) '0' ++ ds := by simp [List.replicate_succ]
      rw [hzeros, count_append, count_zeros]
      simp
    · simp only [Lexeme.exponent, List.length_append, List.length_replicate]
      omega
  next he =>
    dsimp only
    split
    next hshort =>
      -- The zeros up to the point, and one behind it.
      refine Lexeme.toRat_of_digits (n := e.toNat + 1 - ds.length + 1) ?_ ?_
      · rw [List.take_of_length_le hshort, count_append, count_append, count_zeros,
          List.length_replicate, pow_succ', show count ['0'] = 0 by decide]
        simp [mul_assoc]
      · simp only [List.length_append, List.length_replicate] at hshort
        simp only [Lexeme.exponent, List.length_singleton]
        omega
    next hlong =>
      have hnone : e.toNat + 1 - ds.length = 0 := by
        simp only [List.length_append, List.length_replicate] at hlong
        omega
      refine Lexeme.toRat_of_digits (n := 0) ?_ ?_
      · rw [List.take_append_drop, hnone]
        simp
      · rw [hnone] at hlong ⊢
        simp only [Lexeme.exponent, List.replicate_zero, List.append_nil, List.length_drop]
          at hlong ⊢
        omega

theorem toRat_layoutLexeme {ds : List Char} (h : ds ≠ []) (e : Int) :
    (layoutLexeme ds e).toRat = placed ds e := by
  unfold layoutLexeme
  split
  · exact toRat_scientificLexeme h e
  · exact toRat_positionalLexeme ds e

/-- The digits of a decimal are its significant ones and zeros. -/
theorem exists_zeros (d : Decimal) : ∃ n, Nat.toDigits 10 d.digits =
    d.significant.1 ++ List.replicate n '0' := by
  have hsplit := List.takeWhile_append_dropWhile (p := (· == '0'))
    (l := (Nat.toDigits 10 d.digits).reverse)
  have hzeros : ∀ c ∈ (Nat.toDigits 10 d.digits).reverse.takeWhile (· == '0'), c = '0' :=
    fun c hc => by simpa using List.mem_takeWhile_imp hc
  rw [List.eq_replicate_of_mem hzeros] at hsplit
  have hback := congrArg List.reverse hsplit
  rw [List.reverse_append, List.reverse_replicate, List.reverse_reverse] at hback
  exact ⟨_, hback.symm⟩

theorem significant_of_pos {d : Decimal} (h : 0 < d.digits) : Significant d.significant.1 := by
  obtain ⟨n, hn⟩ := exists_zeros d
  have hne : d.significant.1 ≠ [] := by
    intro hnil
    have hcount := count_toDigits d.digits
    rw [hn, hnil, List.nil_append, count_zeros] at hcount
    omega
  refine ⟨fun c hc => ?_, hne, ?_⟩
  · exact Nat.isDigit_of_mem_toDigits (by decide) (by decide) (hn ▸ List.mem_append_left _ hc)
  · have hfirst := head_toDigits h
    rwa [hn, List.head?_append_of_ne_nil _ hne] at hfirst

theorem placed_significant (d : Decimal) :
    placed d.significant.1 d.significant.2 = d.toRat := by
  obtain ⟨n, hn⟩ := exists_zeros d
  have hten : (10 : ℚ) ≠ 0 := by norm_num
  have hdigits : d.digits = 10 ^ n * count d.significant.1 := by
    rw [← count_toDigits d.digits, hn, count_append, count_zeros, List.length_replicate, add_zero]
  have hplace : d.significant.2 = d.exponent + (d.significant.1.length + n : Nat) - 1 := by
    have hlength : (Nat.toDigits 10 d.digits).length = d.significant.1.length + n := by
      rw [hn, List.length_append, List.length_replicate]
    rw [← hlength]
    rfl
  have hexponent : d.significant.2 - d.significant.1.length + 1 = n + d.exponent := by omega
  unfold placed Decimal.toRat
  rw [hexponent, zpow_add₀ hten, zpow_natCast, hdigits]
  push_cast
  ring

theorem wellFormed_scientificLexeme {ds : List Char} (h : Significant ds) (e : Int) :
    (scientificLexeme ds e).WellFormed where
  plain := by
    obtain ⟨d, rest, rfl⟩ := List.exists_cons_of_ne_nil h.nonempty
    exact Or.inr ⟨List.cons_ne_nil _ _, h.head⟩
  digits := by
    rw [show (scientificLexeme ds e).whole ++ (scientificLexeme ds e).fraction = ds from
      List.take_append_drop 1 ds]
    exact h.digits
  power := by
    rintro negative es hpower
    obtain ⟨-, rfl⟩ := Prod.mk.inj (Option.some.inj hpower)
    refine ⟨List.append_ne_nil_of_right_ne_nil _ Nat.toDigits_ne_nil, fun c hc => ?_⟩
    rcases List.mem_append.mp hc with hc | hc
    · exact isDigit_of_mem_zeros hc
    · exact Nat.isDigit_of_mem_toDigits (by decide) (by decide) hc
  real := Or.inr (Option.some_ne_none _)

theorem wellFormed_positionalLexeme {ds : List Char} (h : Significant ds) (e : Int) :
    (positionalLexeme ds e).WellFormed where
  plain := by
    unfold positionalLexeme
    split
    · exact Or.inl rfl
    · obtain ⟨d, rest, rfl⟩ := List.exists_cons_of_ne_nil h.nonempty
      exact Or.inr ⟨List.cons_ne_nil _ _, h.head⟩
  digits := by
    have hpadded : ∀ n, ∀ c ∈ ds ++ List.replicate n '0', c.isDigit = true := by
      intro n c hc
      rcases List.mem_append.mp hc with hc | hc
      · exact h.digits c hc
      · exact isDigit_of_mem_zeros hc
    intro c hc
    unfold positionalLexeme at hc
    split at hc
    · rcases List.mem_append.mp hc with hc | hc
      · obtain rfl := List.mem_singleton.mp hc
        rfl
      · rcases List.mem_append.mp hc with hc | hc
        · exact isDigit_of_mem_zeros hc
        · exact h.digits c hc
    · dsimp only at hc
      split at hc
      · rcases List.mem_append.mp hc with hc | hc
        · exact hpadded _ c (List.mem_of_mem_take hc)
        · obtain rfl := List.mem_singleton.mp hc
          rfl
      · rw [List.take_append_drop] at hc
        exact hpadded _ c hc
  power := by
    rw [power_positionalLexeme]
    exact nofun
  real := Or.inl (fraction_positionalLexeme h.nonempty e)

/-- The lexeme of a finite number without its sign. -/
def finiteLexeme (m : Nat) (e : Int) : Lexeme :=
  if m = 0 then ⟨['0'], ['0'], none⟩
  else layoutLexeme (shortestDecimal m e).significant.1 (shortestDecimal m e).significant.2

theorem text_finite (words : Words) (negative : Bool) (m : Nat) (e : Int) :
    (View.finite negative m e).text words =
      (if negative then "-" else "") ++ String.ofList (finiteLexeme m e).text := by
  unfold View.text finiteLexeme
  dsimp only
  by_cases hm : m = 0
  · rw [if_pos hm, if_pos hm]
    rfl
  · have hds := (significant_of_pos (shortestDecimal_pos (Nat.pos_of_ne_zero hm) e)).nonempty
    rw [if_neg hm, if_neg hm, text_layoutLexeme hds]

theorem wellFormed_finiteLexeme (m : Nat) (e : Int) : (finiteLexeme m e).WellFormed := by
  unfold finiteLexeme
  by_cases hm : m = 0
  · rw [if_pos hm]
    exact ⟨Or.inl rfl, List.all_iff_forall_prop.mp (by decide), nofun,
      Or.inl (List.cons_ne_nil _ _)⟩
  · have hds := significant_of_pos (shortestDecimal_pos (Nat.pos_of_ne_zero hm) e)
    rw [if_neg hm]
    unfold layoutLexeme
    split
    · exact wellFormed_scientificLexeme hds _
    · exact wellFormed_positionalLexeme hds _

theorem toRat_finiteLexeme_zero (e : Int) : (finiteLexeme 0 e).toRat = 0 := by
  simp [finiteLexeme, Lexeme.toRat, show count ['0', '0'] = 0 by decide]

theorem toRat_finiteLexeme {m : Nat} (h : 0 < m) (e : Int) :
    (finiteLexeme m e).toRat = (shortestDecimal m e).toRat := by
  have hds := (significant_of_pos (shortestDecimal_pos h e)).nonempty
  rw [finiteLexeme, if_neg h.ne', toRat_layoutLexeme hds, placed_significant]

theorem toRat_shortestDecimal_pos {m : Nat} (h : 0 < m) (e : Int) :
    0 < (shortestDecimal m e).toRat :=
  mul_pos (by exact_mod_cast shortestDecimal_pos h e) (by positivity)

/-- The lexeme of a finite number tells its mantissa and exponent. -/
theorem eq_of_finiteLexeme {x y : Float} {s t : Bool} {m n : Nat} {e f : Int}
    (hx : view x = .finite s m e) (hy : view y = .finite t n f)
    (h : finiteLexeme m e = finiteLexeme n f) : m = n ∧ e = f := by
  have hvalue := congrArg Lexeme.toRat h
  rcases zero_or_canonical hx with ⟨rfl, rfl⟩ | hm
  · rcases zero_or_canonical hy with ⟨rfl, rfl⟩ | hn
    · exact ⟨rfl, rfl⟩
    · rw [toRat_finiteLexeme_zero, toRat_finiteLexeme hn.pos] at hvalue
      exact absurd hvalue (toRat_shortestDecimal_pos hn.pos f).ne
  · rw [toRat_finiteLexeme hm.pos] at hvalue
    rcases zero_or_canonical hy with ⟨rfl, rfl⟩ | hn
    · rw [toRat_finiteLexeme_zero] at hvalue
      exact absurd hvalue (toRat_shortestDecimal_pos hm.pos e).ne'
    · rw [toRat_finiteLexeme hn.pos] at hvalue
      exact eq_of_toRat_shortestDecimal hm hn hvalue

end Conventions.Number
