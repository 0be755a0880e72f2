import Mathlib.Algebra.Order.Field.Power
import Mathlib.Algebra.Order.Field.Rat
import Mathlib.Tactic.FieldSimp
import Mathlib.Tactic.Linarith
import Mathlib.Tactic.Positivity
import Conventions.Number.Shortest
import Conventions.Proofs.Number.Scaling

/-!
# Different numbers, different decimals

The decimal that is written for a number lies among the reals that round to it, whether one of the
shorter candidates fits or the exact value has to be written out. No real rounds to two numbers:
where the intervals of neighbours meet, one of the two mantissas is odd, and its interval is open.
So a decimal tells which number it was written for.
-/
namespace Conventions.Number

open Float.Model Float.Model.UnpackedFloat

def Fraction.toRat (p : Fraction) : ℚ := p.num / p.den

theorem Fraction.den_scaled_pos {b : Nat} (hb : 0 < b) (m : Nat) (e : Int) :
    0 < (Fraction.scaled m b e).den := by
  unfold Fraction.scaled
  split
  · exact Nat.one_pos
  · exact Nat.pow_pos hb

theorem Fraction.toRat_scaled {b : Nat} (hb : 0 < b) (m : Nat) (e : Int) :
    (Fraction.scaled m b e).toRat = m * (b : ℚ) ^ e := by
  have hne : (b : ℚ) ≠ 0 := by positivity
  unfold Fraction.scaled Fraction.toRat
  split
  next he =>
    obtain ⟨n, rfl⟩ := Int.eq_ofNat_of_zero_le he
    simp
  next he =>
    obtain ⟨n, hn⟩ := Int.eq_ofNat_of_zero_le (a := -e) (by omega)
    obtain rfl : e = -(n : Int) := by omega
    simp [div_eq_mul_inv]

theorem Fraction.le_iff {p q : Fraction} (hp : 0 < p.den) (hq : 0 < q.den) :
    p.le q = true ↔ p.toRat ≤ q.toRat := by
  unfold Fraction.le Fraction.toRat
  rw [decide_eq_true_iff, div_le_div_iff₀ (by exact_mod_cast hp) (by exact_mod_cast hq)]
  exact_mod_cast Iff.rfl

theorem Fraction.lt_iff {p q : Fraction} (hp : 0 < p.den) (hq : 0 < q.den) :
    p.lt q = true ↔ p.toRat < q.toRat := by
  unfold Fraction.lt Fraction.toRat
  rw [decide_eq_true_iff, div_lt_div_iff₀ (by exact_mod_cast hp) (by exact_mod_cast hq)]
  exact_mod_cast Iff.rfl

def Decimal.toRat (d : Decimal) : ℚ := d.digits * (10 : ℚ) ^ d.exponent

theorem Decimal.toRat_value (d : Decimal) : d.value.toRat = d.toRat := by
  unfold Decimal.value Decimal.toRat
  rw [Fraction.toRat_scaled (by decide)]
  norm_num

/-- How far below four times the mantissa the interval begins, in quarters of the last bit. -/
def slack (m : Nat) (e : Int) : Nat := if m = 2 ^ 52 ∧ e ≠ -1074 then 1 else 2

theorem slack_le (m : Nat) (e : Int) : 1 ≤ slack m e ∧ slack m e ≤ 2 := by
  unfold slack
  split <;> decide

/-- The interval of a number holds what lies between its ends, and the ends where the mantissa is
even. -/
theorem RoundingInterval.contains_iff {m : Nat} {e : Int} {d : Decimal} :
    (RoundingInterval.of m e).contains d.value = true ↔
      ((4 * m - slack m e : Nat) : ℚ) * 2 ^ (e - 2) ≤ d.toRat ∧
        d.toRat ≤ ((4 * m + 2 : Nat) : ℚ) * 2 ^ (e - 2) ∧
        (m % 2 = 1 → ((4 * m - slack m e : Nat) : ℚ) * 2 ^ (e - 2) ≠ d.toRat ∧
          d.toRat ≠ ((4 * m + 2 : Nat) : ℚ) * 2 ^ (e - 2)) := by
  have hlow : (RoundingInterval.of m e).low.toRat =
      ((4 * m - slack m e : Nat) : ℚ) * 2 ^ (e - 2) := Fraction.toRat_scaled (by decide) _ _
  have hhigh : (RoundingInterval.of m e).high.toRat = ((4 * m + 2 : Nat) : ℚ) * 2 ^ (e - 2) :=
    Fraction.toRat_scaled (by decide) _ _
  have hlowDen : 0 < (RoundingInterval.of m e).low.den := Fraction.den_scaled_pos (by decide) _ _
  have hhighDen : 0 < (RoundingInterval.of m e).high.den := Fraction.den_scaled_pos (by decide) _ _
  have hden : 0 < d.value.den := Fraction.den_scaled_pos (by decide) _ _
  rw [← hlow, ← hhigh, ← d.toRat_value]
  unfold RoundingInterval.contains
  split
  next hclosed =>
    have heven : ¬m % 2 = 1 := by
      have := of_decide_eq_true hclosed
      omega
    simp [Fraction.le_iff hlowDen hden, Fraction.le_iff hden hhighDen, heven]
  next hopen =>
    have hodd : m % 2 = 1 := by
      have := mt decide_eq_true hopen
      omega
    simp only [Bool.and_eq_true, Fraction.lt_iff hlowDen hden, Fraction.lt_iff hden hhighDen, hodd,
      lt_iff_le_and_ne, forall_const]
    tauto

/-- Of two numbers the interval of the smaller ends where that of the larger begins, or before; and
where they meet, one of the mantissas is odd. -/
theorem high_le_low {m m' : Nat} {e e' : Int} {j : Nat} (h : Canonical m e) (h' : Canonical m' e')
    (hj : e + j = e') (hless : 0 < j ∨ m < m') :
    4 * m + 2 ≤ (4 * m' - slack m' e') * 2 ^ j ∧
      (4 * m + 2 = (4 * m' - slack m' e') * 2 ^ j → m % 2 = 1 ∨ m' % 2 = 1) := by
  have hsmall := h.small
  have hlow := h.low
  have hslack := slack_le m' e'
  have hpos := h'.pos
  cases j with
  | zero =>
    rw [pow_zero, mul_one]
    omega
  | succ i =>
    have hfull : 2 ^ 52 ≤ m' := h'.full.resolve_right (by omega)
    have hexact : m' = 2 ^ 52 → slack m' e' = 1 := fun hm => if_pos ⟨hm, by omega⟩
    have htwice : 2 ^ 55 - 2 ≤ (4 * m' - slack m' e') * 2 := by
      by_cases hm : m' = 2 ^ 52
      · have := hexact hm
        omega
      · omega
    have hone : 1 ≤ 2 ^ i := Nat.one_le_two_pow
    have hgrow : (4 * m' - slack m' e') * 2 ≤ (4 * m' - slack m' e') * 2 ^ (i + 1) := by
      rw [pow_succ']
      exact Nat.mul_le_mul_left _ (Nat.le_mul_of_pos_right 2 hone)
    refine ⟨by omega, fun hmeet => Or.inl ?_⟩
    -- The ends meet below a power of two only, so the smaller mantissa consists of ones.
    omega

theorem not_both_of_less {m m' : Nat} {e e' : Int} (h : Canonical m e) (h' : Canonical m' e')
    (hless : e < e' ∨ e = e' ∧ m < m') {d : Decimal}
    (hd : (RoundingInterval.of m e).contains d.value = true) :
    (RoundingInterval.of m' e').contains d.value ≠ true := by
  obtain ⟨j, hj⟩ : ∃ j : Nat, e + j = e' := ⟨(e' - e).toNat, by omega⟩
  obtain ⟨hle, hmeet⟩ := high_le_low h h' hj (by omega)
  intro hd'
  obtain ⟨-, hhigh, hopen⟩ := RoundingInterval.contains_iff.mp hd
  obtain ⟨hlow, -, hopen'⟩ := RoundingInterval.contains_iff.mp hd'
  have hscale : (2 : ℚ) ^ (e' - 2) = 2 ^ j * 2 ^ (e - 2) := by
    rw [← zpow_natCast, ← zpow_add₀ two_ne_zero]
    congr 1
    omega
  have hunit : (0 : ℚ) < 2 ^ (e - 2) := by positivity
  have hend : ((4 * m' - slack m' e' : Nat) : ℚ) * 2 ^ (e' - 2) =
      ((4 * m' - slack m' e') * 2 ^ j : Nat) * 2 ^ (e - 2) := by
    rw [hscale]
    push_cast
    ring
  rw [hend] at hlow hopen'
  have hback := le_of_mul_le_mul_right (hlow.trans hhigh) hunit
  have hequal : 4 * m + 2 = (4 * m' - slack m' e') * 2 ^ j :=
    Nat.le_antisymm hle (by exact_mod_cast hback)
  rw [← hequal] at hlow hopen'
  have heq := le_antisymm hhigh hlow
  rcases hmeet hequal with hodd | hodd
  · exact (hopen hodd).2 heq
  · exact (hopen' hodd).1 heq.symm

/-- A decimal lies in the interval of one number only. -/
theorem eq_of_contains {m m' : Nat} {e e' : Int} (h : Canonical m e) (h' : Canonical m' e')
    {d : Decimal} (hd : (RoundingInterval.of m e).contains d.value = true)
    (hd' : (RoundingInterval.of m' e').contains d.value = true) : m = m' ∧ e = e' := by
  rcases lt_trichotomy e e' with hlt | heq | hlt
  · exact absurd hd' (not_both_of_less h h' (Or.inl hlt) hd)
  · rcases Nat.lt_trichotomy m m' with hm | hm | hm
    · exact absurd hd' (not_both_of_less h h' (Or.inr ⟨heq, hm⟩) hd)
    · exact ⟨hm, heq⟩
    · exact absurd hd (not_both_of_less h' h (Or.inr ⟨heq.symm, hm⟩) hd')
  · exact absurd hd (not_both_of_less h' h (Or.inl hlt) hd')

theorem toRat_exactDecimal (m : Nat) (e : Int) : (exactDecimal m e).toRat = m * (2 : ℚ) ^ e := by
  unfold exactDecimal Decimal.toRat
  split
  next he =>
    obtain ⟨n, rfl⟩ := Int.eq_ofNat_of_zero_le he
    simp
  next he =>
    obtain ⟨n, hn⟩ := Int.eq_ofNat_of_zero_le (a := -e) (by omega)
    obtain rfl : e = -(n : Int) := by omega
    have hten : (10 : ℚ) ^ n = 5 ^ n * 2 ^ n := by rw [← mul_pow]; norm_num
    simp only [neg_neg, Int.toNat_natCast, zpow_neg, zpow_natCast, hten, Nat.pow_eq]
    push_cast
    field_simp

/-- The value itself lies between the ends of its interval. -/
theorem contains_exactDecimal {m : Nat} (hm : 0 < m) (e : Int) :
    (RoundingInterval.of m e).contains (exactDecimal m e).value = true := by
  have hunit : (0 : ℚ) < 2 ^ (e - 2) := by positivity
  have hvalue : (exactDecimal m e).toRat = ((4 * m : Nat) : ℚ) * 2 ^ (e - 2) := by
    rw [toRat_exactDecimal, zpow_sub₀ two_ne_zero]
    push_cast
    ring
  have hslack := slack_le m e
  have hlow : ((4 * m - slack m e : Nat) : ℚ) * 2 ^ (e - 2) < (4 * m : Nat) * 2 ^ (e - 2) :=
    mul_lt_mul_of_pos_right (by exact_mod_cast (by omega : 4 * m - slack m e < 4 * m)) hunit
  have hhigh : ((4 * m : Nat) : ℚ) * 2 ^ (e - 2) < (4 * m + 2 : Nat) * 2 ^ (e - 2) :=
    mul_lt_mul_of_pos_right (by exact_mod_cast (by omega : 4 * m < 4 * m + 2)) hunit
  rw [RoundingInterval.contains_iff, hvalue]
  exact ⟨hlow.le, hhigh.le, fun _ => ⟨hlow.ne, hhigh.ne⟩⟩

/-- What is written for a number reads back to it. -/
theorem contains_shortestDecimal {m : Nat} (hm : 0 < m) (e : Int) :
    (RoundingInterval.of m e).contains (shortestDecimal m e).value = true := by
  unfold shortestDecimal
  dsimp only
  generalize hc : ((List.range 17).flatMap fun n =>
    gridNeighbours (Fraction.scaled m 2 e) (n + 1)) = candidates
  cases hfound : candidates.find? fun d => (RoundingInterval.of m e).contains d.value with
  | none => exact contains_exactDecimal hm e
  | some d => simpa using List.find?_some hfound

theorem shortestDecimal_pos {m : Nat} (hm : 0 < m) (e : Int) :
    0 < (shortestDecimal m e).digits := by
  obtain ⟨hlow, -⟩ := RoundingInterval.contains_iff.mp (contains_shortestDecimal hm e)
  have hslack := slack_le m e
  have hpos : (0 : ℚ) < (4 * m - slack m e : Nat) * 2 ^ (e - 2) :=
    mul_pos (by exact_mod_cast (by omega : 0 < 4 * m - slack m e)) (by positivity)
  refine Nat.pos_of_ne_zero fun hzero => absurd (hpos.trans_le hlow) ?_
  simp [Decimal.toRat, hzero]

/-- Numbers with one shortest decimal are one number. -/
theorem eq_of_toRat_shortestDecimal {m m' : Nat} {e e' : Int} (h : Canonical m e)
    (h' : Canonical m' e') (heq : (shortestDecimal m e).toRat = (shortestDecimal m' e').toRat) :
    m = m' ∧ e = e' := by
  have hd := contains_shortestDecimal h.pos e
  rw [RoundingInterval.contains_iff, heq, ← RoundingInterval.contains_iff] at hd
  exact eq_of_contains h h' hd (contains_shortestDecimal h'.pos e')

theorem eq_of_fields {x y : Float} (hf : fractionBits x = fractionBits y)
    (he : exponentBits x = exponentBits y) (hs : signBit x = signBit y) : x = y := by
  have hx := x.toBits.toNat_lt
  have hy := y.toBits.toNat_lt
  simp only [fractionBits, exponentBits, signBit, Nat.pow_eq] at hf he hs
  rw [Bool.eq_iff_iff, beq_iff_eq, beq_iff_eq] at hs
  have hbits : x.toBits = y.toBits := UInt64.toNat.inj (by omega)
  obtain ⟨⟨_, _⟩⟩ := x
  obtain ⟨⟨_, _⟩⟩ := y
  cases hbits
  rfl

/-- There is one value that is not a number. -/
theorem eq_of_notANumber {x y : Float} (hx : view x = .notANumber) (hy : view y = .notANumber) :
    x = y := by
  have hpacked {z : Float} (hz : view z = .notANumber) : bits z = packedNaN Format.binary64 := by
    obtain ⟨hones, -⟩ := exponent_eq_iff (unpackExponent (bits z))
    unfold view at hz
    split at hz
    next he =>
      split at hz
      · cases hz
      next hf =>
        rw [fractionBits_eq, ← mantissa_eq_zero_iff] at hf
        exact z.toModel.valid.eq_packedNaN (hones.mpr (exponentBits_eq z ▸ he)) hf
    · split at hz <;> cases hz
  have hbits : bits x = bits y := (hpacked hx).trans (hpacked hy).symm
  refine eq_of_fields ?_ ?_ ?_
  · rw [fractionBits_eq, fractionBits_eq, hbits]
  · rw [exponentBits_eq, exponentBits_eq, hbits]
  · rw [signBit_eq, signBit_eq, hbits]

/-- The fields of a finite number. -/
theorem fields_of_finite {x : Float} {negative : Bool} {m : Nat} {e : Int}
    (h : view x = .finite negative m e) : signBit x = negative ∧
      (exponentBits x = 0 ∧ m = fractionBits x ∧ e = -1074 ∨
        0 < exponentBits x ∧ m = 2 ^ 52 + fractionBits x ∧ e = exponentBits x - 1075) := by
  unfold view at h
  split at h
  · split at h <;> cases h
  · split at h
    next he =>
      obtain ⟨hs, hm, he'⟩ := View.finite.inj h
      exact ⟨hs, Or.inl ⟨he, hm.symm, he'.symm⟩⟩
    next he =>
      obtain ⟨hs, hm, he'⟩ := View.finite.inj h
      exact ⟨hs, Or.inr ⟨Nat.pos_of_ne_zero he, hm.symm, he'.symm⟩⟩

theorem fields_of_infinite {x : Float} {negative : Bool} (h : view x = .infinite negative) :
    signBit x = negative ∧ exponentBits x = 2047 ∧ fractionBits x = 0 := by
  unfold view at h
  split at h
  next he =>
    split at h
    next hf => exact ⟨View.infinite.inj h, he, hf⟩
    next => cases h
  · split at h <;> cases h

/-- What a number stands for tells which number it is. -/
theorem view_injective : Function.Injective view := by
  intro x y h
  cases hx : view x with
  | notANumber => exact eq_of_notANumber hx (h ▸ hx)
  | infinite negative =>
    obtain ⟨hsx, hex, hfx⟩ := fields_of_infinite hx
    obtain ⟨hsy, hey, hfy⟩ := fields_of_infinite (h ▸ hx)
    exact eq_of_fields (hfx.trans hfy.symm) (hex.trans hey.symm) (hsx.trans hsy.symm)
  | finite negative m e =>
    obtain ⟨hsx, hcasex⟩ := fields_of_finite hx
    obtain ⟨hsy, hcasey⟩ := fields_of_finite (h ▸ hx)
    have hfx : fractionBits x < 2 ^ 52 := Nat.mod_lt _ (by decide)
    have hfy : fractionBits y < 2 ^ 52 := Nat.mod_lt _ (by decide)
    exact eq_of_fields (by omega) (by omega) (hsx.trans hsy.symm)

/-- A finite number is zero, or its mantissa and exponent are as after rounding. -/
theorem zero_or_canonical {x : Float} {negative : Bool} {m : Nat} {e : Int}
    (h : view x = .finite negative m e) : m = 0 ∧ e = -1074 ∨ Canonical m e := by
  rw [view_eq] at h
  cases hx : x.toModel.unpack with
  | notANumber => rw [hx] at h; cases h
  | infinity s => rw [hx] at h; cases h
  | zero s =>
    rw [hx] at h
    obtain ⟨-, rfl, rfl⟩ := View.finite.inj h
    exact Or.inl ⟨rfl, rfl⟩
  | finite s m' e' hm =>
    rw [hx] at h
    obtain ⟨-, rfl, rfl⟩ := View.finite.inj h
    exact Or.inr (canonical_of_unpack hx)

end Conventions.Number
