import Mathlib
import Conventions.Number.TwoPlaces
import Conventions.Proofs.Number.Scaling
import Conventions.Proofs.Number.Shortest

/-!
# Rounding

A sum of two numbers, or a tenth of a whole number, may need more bits than a number has. It is
then cut to 53 bits and rounded, so it is at most one part in `2 ^ 52` away from what is exact;
to which side it is rounded does not matter for that. Amounts are counted in smallest units and
stay in the natural numbers. All bounds keep away from what is too large to be finite.

Shown with two places, numbers are the same if they are less than half a hundredth away from
the same number of hundredths.
-/
namespace Conventions.Number

open Float.Model Float.Model.UnpackedFloat

/-- An amount that is at most `slack / parts` away from another one. -/
structure Near (parts slack exact n : Nat) : Prop where
  upper : parts * n ≤ parts * exact + slack
  lower : parts * exact ≤ parts * n + slack

theorem Near.mul {parts slack exact n : Nat} (h : Near parts slack exact n) (k : Nat) :
    Near parts (slack * k) (exact * k) (n * k) where
  upper := by
    rw [← mul_assoc, ← mul_assoc, ← Nat.add_mul]
    exact Nat.mul_le_mul_right k h.upper
  lower := by
    rw [← mul_assoc, ← mul_assoc, ← Nat.add_mul]
    exact Nat.mul_le_mul_right k h.lower

theorem Near.refl (parts slack n : Nat) : Near parts slack n n :=
  ⟨Nat.le_add_right _ _, Nat.le_add_right _ _⟩

theorem units_zero (e : Int) : units 0 e = 0 :=
  Nat.zero_mul _

theorem units_add (a b : Nat) (e : Int) : units (a + b) e = units a e + units b e :=
  Nat.add_mul _ _ _

theorem units_mul (a b : Nat) (e : Int) : units (a * b) e = a * units b e :=
  Nat.mul_assoc _ _ _

theorem units_mono {a b : Nat} (h : a ≤ b) (e : Int) : units a e ≤ units b e :=
  Nat.mul_le_mul_right _ h

/-- Zeros at the end of a mantissa can be moved to the exponent. -/
theorem units_mul_two_pow (m k : Nat) {e : Int} (he : -1074 ≤ e) :
    units (m * 2 ^ k) e = units m (e + k) := by
  have hexponents : (e + k + 1074).toNat = k + (e + 1074).toNat := by omega
  rw [units, units, hexponents, pow_add, mul_assoc]

theorem Canonical.exponent_eq {m : Nat} {e : Int} (h : Canonical m e) :
    e = max (m.log2 + e - 52) (-1074) := by
  have hlow := h.low
  have hsmall : m.log2 < 53 := (Nat.log2_lt h.pos.ne').mpr h.small
  have hfull : 52 ≤ m.log2 ∨ e = -1074 := h.full.imp_left (Nat.le_log2 h.pos.ne').mpr
  omega

theorem mantissa_shiftRight (em : ExtendedMantissa) (n : Nat) :
    (em >>> n).mantissa = em.mantissa / 2 ^ n := by
  induction n with
  | zero => exact (Nat.div_one _).symm
  | succ n ih =>
    show (em >>> n).mantissa / 2 = _
    rw [ih, Nat.div_div_eq_div_mul, pow_succ]

theorem roundedMantissa_bounds (em : ExtendedMantissa) :
    em.mantissa ≤ em.roundedMantissa ∧ em.roundedMantissa ≤ em.mantissa + 1 := by
  obtain ⟨m, round, sticky⟩ := em
  cases round <;> cases sticky
  · exact ⟨Nat.le_refl m, Nat.le_succ m⟩
  · exact ⟨Nat.le_refl m, Nat.le_succ m⟩
  · show m ≤ m + m % 2 ∧ m + m % 2 ≤ m + 1
    omega
  · exact ⟨Nat.le_succ m, Nat.le_refl (m + 1)⟩

theorem near_of_shift {m n r : Nat} (hlow : m / 2 ^ n ≤ r) (hhigh : r ≤ m / 2 ^ n + 1)
    (hfull : 2 ^ 52 * 2 ^ n ≤ m) : Near (2 ^ 52) m m (r * 2 ^ n) := by
  have hfloor := Nat.div_mul_le_self m (2 ^ n)
  have hceil := Nat.lt_div_mul_add (a := m) (Nat.two_pow_pos n)
  have hup := Nat.mul_le_mul_right (2 ^ n) hhigh
  have hdown := Nat.mul_le_mul_right (2 ^ n) hlow
  rw [Nat.add_mul, Nat.one_mul] at hup
  constructor <;> omega

/-- A mantissa of more than 53 bits is cut to 53 bits and rounded; if that makes it too long by
one bit, the bit is a zero. -/
theorem round_long {m : Nat} {e : Int} (s : Sign) (hm : 52 < m.log2) (he : -1074 ≤ e) :
    ∃ m' e', ∃ h : Canonical m' e',
      roundWithAccuracy Format.binary64 s m e .exact = .finite s m' e' h.pos ∧
      Near (2 ^ 52) (units m e) (units m e) (units m' e') := by
  obtain ⟨n, hn⟩ := Nat.exists_eq_add_of_le hm.le
  have hne : m ≠ 0 := by
    rintro rfl
    exact absurd hm (by decide)
  have hlow : 2 ^ 52 * 2 ^ n ≤ m := by
    rw [← pow_add, ← hn]
    exact Nat.log2_self_le hne
  have hhigh : m < 2 ^ 53 * 2 ^ n := by
    rw [← pow_add, ← Nat.log2_lt hne]
    omega
  obtain ⟨em, hem⟩ : ∃ em, (⟨m, false, false⟩ : ExtendedMantissa) >>> n = em := ⟨_, rfl⟩
  have hfirst : shiftToTargetExponent Format.binary64 m e .exact = (em, e + n) := by
    have hshift : (max ((m.log2 : Int) + e - 52) (-1074) - e).toNat = n := by omega
    unfold shiftToTargetExponent shiftToExponent
    simp only [targetExponent_eq, hshift, ExtendedMantissa.ofMantissaAndAccuracy, hem]
  have hbounds := roundedMantissa_bounds em
  obtain ⟨r, hr⟩ : ∃ r, em.roundedMantissa = r := ⟨_, rfl⟩
  rw [← hem, mantissa_shiftRight, hem, hr] at hbounds
  have hnear := near_of_shift hbounds.1 hbounds.2 hlow
  have hfull : 2 ^ 52 ≤ r :=
    ((Nat.le_div_iff_mul_le (Nat.two_pow_pos n)).mpr hlow).trans hbounds.1
  have hsmall : r ≤ 2 ^ 53 :=
    hbounds.2.trans ((Nat.div_lt_iff_lt_mul (Nat.two_pow_pos n)).mpr hhigh)
  have hrounded : Near (2 ^ 52) (units m e) (units m e) (units r (e + n)) := by
    rw [← units_mul_two_pow r n he]
    exact hnear.mul _
  have hpos : 0 < r := (Nat.two_pow_pos 52).trans_le hfull
  rcases hsmall.lt_or_eq with hless | hover
  · have h : Canonical r (e + n) := ⟨hpos, hless, by omega, Or.inl hfull⟩
    have hsecond := shiftToTargetExponent_self hpos h.exponent_eq
    exact ⟨r, e + n, h, round_of_shifts hfirst hr hsecond hpos s, hrounded⟩
  · have hdouble : r = 2 ^ 52 * 2 ^ 1 := hover
    have hsecond := shiftToTargetExponent_exact (m := 2 ^ 52) (n := 1) (e := e + n)
      (by decide) (by rw [Nat.log2_two_pow]; omega)
    rw [hdouble, units_mul_two_pow _ _ (by omega : -1074 ≤ e + n)] at hrounded
    exact ⟨2 ^ 52, e + n + (1 : Nat), ⟨by decide, by decide, by omega, Or.inl le_rfl⟩,
      round_of_shifts hfirst (hr.trans hdouble) hsecond (by decide) s, hrounded⟩

/-- A mantissa of at most 53 bits is not rounded. -/
theorem round_short {m : Nat} {e : Int} (s : Sign) (hpos : 0 < m) (hm : m.log2 ≤ 52)
    (he : -1074 ≤ e) :
    ∃ m' e', ∃ h : Canonical m' e',
      UnpackedFloat.round Format.binary64 s m e = .finite s m' e' h.pos ∧
        units m' e' = units m e := by
  obtain ⟨k, hk⟩ : ∃ k : Nat, (k : Int) = e - max (m.log2 + e - 52) (-1074) :=
    ⟨_, Int.toNat_of_nonneg (by omega)⟩
  have hpos' : 0 < m * 2 ^ k := Nat.mul_pos hpos (Nat.two_pow_pos k)
  have hlog := log2_mul_two_pow hpos k
  have hcanonical : Canonical (m * 2 ^ k) (e - k) := by
    refine ⟨hpos', (Nat.log2_lt hpos'.ne').mp (by omega), by omega, ?_⟩
    rw [← Nat.le_log2 hpos'.ne', hlog]
    omega
  have hself := shiftToTargetExponent_self hpos' hcanonical.exponent_eq
  refine ⟨m * 2 ^ k, e - k, hcanonical, ?_, ?_⟩
  · unfold UnpackedFloat.round decreaseExponent
    simp only [targetExponent_eq, ← hk, Int.toNat_natCast, Nat.shiftLeft_eq]
    exact round_of_shifts hself rfl hself hpos' s
  · rw [units_mul_two_pow _ _ hcanonical.low, sub_add_cancel]

theorem round_near {m : Nat} {e : Int} (s : Sign) (hpos : 0 < m) (he : -1074 ≤ e) :
    ∃ m' e', ∃ h : Canonical m' e',
      UnpackedFloat.round Format.binary64 s m e = .finite s m' e' h.pos ∧
        Near (2 ^ 52) (units m e) (units m e) (units m' e') := by
  rcases Nat.lt_or_ge 52 m.log2 with hlong | hshort
  · have hkeep : (e - max (m.log2 + e - 52) (-1074)).toNat = 0 := by omega
    have hsame : UnpackedFloat.round Format.binary64 s m e =
        roundWithAccuracy Format.binary64 s m e .exact := by
      unfold UnpackedFloat.round decreaseExponent
      simp only [targetExponent_eq, hkeep, Nat.shiftLeft_zero, Nat.cast_zero, sub_zero]
    rw [hsame]
    exact round_long s hlong he
  · obtain ⟨m', e', h, hround, hunits⟩ := round_short s hpos hshort he
    exact ⟨m', e', h, hround, hunits ▸ Near.refl _ _ _⟩

theorem normalize_natCast {n : Nat} (hn : 0 < n) (e : Int) (s : Sign) :
    UnpackedFloat.normalize Format.binary64 n e s =
      UnpackedFloat.round Format.binary64 .positive n e := by
  have hcompare : compare (n : Int) 0 = .gt := compare_gt_iff_gt.mpr (Int.natCast_pos.mpr hn)
  unfold UnpackedFloat.normalize
  rw [hcompare, Int.toNat_natCast]

theorem add_near {m₁ m₂ : Nat} {e₁ e₂ : Int} (h₁ : Canonical m₁ e₁) (h₂ : Canonical m₂ e₂) :
    ∃ m e, ∃ h : Canonical m e,
      UnpackedFloat.add Format.binary64 (.finite .positive m₁ e₁ h₁.pos)
        (.finite .positive m₂ e₂ h₂.pos) = .finite .positive m e h.pos ∧
      Near (2 ^ 52) (units m₁ e₁ + units m₂ e₂) (units m₁ e₁ + units m₂ e₂) (units m e) := by
  have hlow₁ := h₁.low
  have hlow₂ := h₂.low
  obtain ⟨low, hlow⟩ : ∃ low, low = min e₁ e₂ := ⟨_, rfl⟩
  have hunits {m : Nat} {e : Int} (he : low ≤ e) :
      units (m * 2 ^ (e - low).toNat) low = units m e := by
    rw [units_mul_two_pow _ _ (by omega), Int.toNat_of_nonneg (by omega), add_sub_cancel]
  have hpos : 0 < m₁ * 2 ^ (e₁ - low).toNat + m₂ * 2 ^ (e₂ - low).toNat :=
    Nat.add_pos_left (Nat.mul_pos h₁.pos (Nat.two_pow_pos _)) _
  obtain ⟨m, e, h, hround, hnear⟩ := round_near .positive hpos (by omega : -1074 ≤ low)
  have hsum : units (m₁ * 2 ^ (e₁ - low).toNat + m₂ * 2 ^ (e₂ - low).toNat) low =
      units m₁ e₁ + units m₂ e₂ := by
    rw [units_add, hunits (by omega), hunits (by omega)]
  rw [hsum] at hnear
  refine ⟨m, e, h, ?_, hnear⟩
  rw [← hround, ← normalize_natCast hpos low .positive]
  unfold UnpackedFloat.add decreaseExponent
  simp only [← hlow, Nat.shiftLeft_eq, Sign.apply, Nat.cast_add]

/-- A number without a sign that is so many of the smallest units. -/
inductive Amounts (x : Float) : Nat → Prop
  | zero (hx : x.toModel.unpack = .zero .positive) : Amounts x 0
  | finite {m : Nat} {e : Int} (h : Canonical m e)
      (hx : x.toModel.unpack = .finite .positive m e h.pos) : Amounts x (units m e)

theorem Amounts.view {x : Float} {n : Nat} (h : Amounts x n) :
    ∃ m e, Number.view x = .finite false m e ∧ -1074 ≤ e ∧ units m e = n := by
  cases h with
  | zero hx => exact ⟨0, -1074, by rw [view_eq, hx]; rfl, le_rfl, units_zero _⟩
  | finite h hx => exact ⟨_, _, by rw [view_eq, hx]; rfl, h.low, rfl⟩

theorem Near.fits {n c : Nat} (h : Near (2 ^ 52) n n c) (hsmall : 2 * n < unitLimit) :
    c < unitLimit := by
  have hupper := h.upper
  omega

/-- A number that is packed after rounding. -/
theorem amounts_pack {x : Float} {m : Nat} {e : Int} (h : Canonical m e)
    (hsmall : units m e < unitLimit)
    (hx : x.toModel.unpack = (Float.Model.pack (.finite .positive m e h.pos)).unpack) :
    Amounts x (units m e) := by
  have hunpack := unpack_pack h .positive
  rw [if_pos (h.fits_iff.mpr hsmall)] at hunpack
  exact .finite h (hx.trans hunpack)

theorem Amounts.add {x y : Float} {a b : Nat} (hx : Amounts x a) (hy : Amounts y b)
    (hsmall : 2 * (a + b) < unitLimit) :
    ∃ c, Amounts (x + y) c ∧ Near (2 ^ 52) (a + b) (a + b) c := by
  have hadd : (x + y).toModel.unpack = (Float.Model.pack
    (UnpackedFloat.add Format.binary64 x.toModel.unpack y.toModel.unpack)).unpack := rfl
  cases hx with
  | zero hx =>
    cases hy with
    | zero hy =>
      rw [hx, hy] at hadd
      exact ⟨0, .zero (hadd.trans rfl), Near.refl _ _ _⟩
    | @finite m e h hy =>
      rw [hx, hy] at hadd
      rw [Nat.zero_add] at hsmall ⊢
      exact ⟨units m e, amounts_pack h (by omega) hadd, Near.refl _ _ _⟩
  | @finite m e h hx =>
    cases hy with
    | zero hy =>
      rw [hx, hy] at hadd
      rw [Nat.add_zero] at hsmall ⊢
      exact ⟨units m e, amounts_pack h (by omega) hadd, Near.refl _ _ _⟩
    | finite h' hy =>
      obtain ⟨m, e, hc, heq, hnear⟩ := add_near h h'
      rw [hx, hy, heq] at hadd
      exact ⟨_, amounts_pack hc (hnear.fits hsmall) hadd, hnear⟩

theorem units_lt_limit {n : Nat} (h : n < 2 ^ 60) : units n 0 < unitLimit := by
  have hexponents : 60 + (0 + 1074 : Int).toNat ≤ 53 + exponentRange := by
    unfold exponentRange
    omega
  calc units n 0 < 2 ^ 60 * 2 ^ (0 + 1074 : Int).toNat :=
        Nat.mul_lt_mul_of_pos_right h (Nat.two_pow_pos _)
    _ = 2 ^ (60 + (0 + 1074 : Int).toNat) := (pow_add 2 60 _).symm
    _ ≤ unitLimit := Nat.pow_le_pow_right (by decide) hexponents

/-- From one on all numbers have full mantissas. -/
theorem Canonical.full_of_one_le {m : Nat} {e : Int} (h : Canonical m e)
    (hone : units 1 0 ≤ units m e) : -53 < e ∧ 2 ^ 52 ≤ m := by
  have hless : 2 ^ (0 + 1074 : Int).toNat < 2 ^ (53 + (e + 1074).toNat) :=
    calc 2 ^ (0 + 1074 : Int).toNat = units 1 0 := by rw [units, Nat.one_mul]
      _ ≤ units m e := hone
      _ < 2 ^ 53 * 2 ^ (e + 1074).toNat := Nat.mul_lt_mul_of_pos_right h.small (Nat.two_pow_pos _)
      _ = 2 ^ (53 + (e + 1074).toNat) := (pow_add 2 53 _).symm
  have hexponent := (Nat.pow_lt_pow_iff_right (by decide : 1 < 2)).mp hless
  have hlarge : -53 < e := by omega
  exact ⟨hlarge, h.full.resolve_right (by omega)⟩

theorem unpack_ofUInt64 {n : UInt64} (hn : 0 < n.toNat) (hsmall : n.toNat < 2 ^ 53) :
    ∃ m e, ∃ h : Canonical m e, n.toFloat.toModel.unpack = .finite .positive m e h.pos ∧
      units m e = units n.toNat 0 := by
  have hlog : n.toNat.log2 ≤ 52 := Nat.lt_succ_iff.mp ((Nat.log2_lt hn.ne').mpr hsmall)
  obtain ⟨m, e, h, hround, hunits⟩ := round_short .positive hn hlog (by decide : (-1074 : Int) ≤ 0)
  rw [← normalize_natCast hn 0 .positive] at hround
  refine ⟨m, e, h, ?_, hunits⟩
  have hpack : n.toFloat.toModel.unpack = UnpackedFloat.unpack Format.binary64
    (UnpackedFloat.pack Format.binary64
      (UnpackedFloat.normalize Format.binary64 n.toNat 0 .positive)) := rfl
  have hlimit : units m e < unitLimit := by
    rw [hunits]
    exact units_lt_limit (hsmall.trans (by decide))
  rw [hpack, hround, unpack_pack h, if_pos (h.fits_iff.mpr hlimit)]

theorem unpack_one : (Float.ofBits 0x3FF0000000000000).toModel.unpack =
    .finite .positive (2 ^ 52) (-52) (by decide) := by
  have hbits : (Float.ofBits 0x3FF0000000000000).toModel.toBits = 0x3FF0000000000000 := by decide
  unfold Float.Model.unpack
  rw [hbits]
  rfl

theorem unpack_tenth : (0.1 : Float).toModel.unpack =
    .finite .positive 0x1999999999999A (-56) (by decide) := by
  have hbits : (0.1 : Float).toModel.toBits = 0x3FB999999999999A := by decide
  unfold Float.Model.unpack
  rw [hbits]
  rfl

theorem toFloat_eq {n : Nat} (h : n < 2 ^ 53) :
    n.toFloat = n.toUInt64.toFloat * Float.ofBits 0x3FF0000000000000 := by
  show Float.ofScientific n false 0 = _
  unfold Float.ofScientific
  rw [dif_pos ⟨h, by decide⟩]
  rfl

theorem mul_one_exact {m : Nat} {e : Int} (h : Canonical m e) :
    UnpackedFloat.mul Format.binary64 (.finite .positive m e h.pos)
      (.finite .positive (2 ^ 52) (-52) (by decide)) = .finite .positive m e h.pos := by
  show roundWithAccuracy Format.binary64 .positive (m * 2 ^ 52) (e + -52) .exact = _
  have hexponent := h.exponent_eq
  rw [round_exact h.pos .positive (by omega)]
  congr 1
  omega

theorem unpack_toFloat {n : Nat} (hn : 0 < n) (hsmall : n < 2 ^ 53) :
    ∃ m e, ∃ h : Canonical m e, n.toFloat.toModel.unpack = .finite .positive m e h.pos ∧
      units m e = units n 0 := by
  have htoNat : n.toUInt64.toNat = n := Nat.mod_eq_of_lt (hsmall.trans (by decide))
  obtain ⟨m, e, h, hx, hunits⟩ := unpack_ofUInt64 (n := n.toUInt64) (by omega) (by omega)
  rw [htoNat] at hunits
  have hlimit : units m e < unitLimit := by
    rw [hunits]
    exact units_lt_limit (hsmall.trans (by decide))
  refine ⟨m, e, h, ?_, hunits⟩
  have hmul : n.toFloat.toModel.unpack = UnpackedFloat.unpack Format.binary64
      (UnpackedFloat.pack Format.binary64 (UnpackedFloat.mul Format.binary64
        n.toUInt64.toFloat.toModel.unpack (Float.ofBits 0x3FF0000000000000).toModel.unpack)) := by
    rw [toFloat_eq hsmall]
    rfl
  rw [hmul, hx, unpack_one, mul_one_exact h, unpack_pack h, if_pos (h.fits_iff.mpr hlimit)]

/-- Tenths are rounded twice: there is no number for the tenth itself. -/
theorem amounts_tenths {n : Nat} (hn : 0 < n) (hsmall : n < 2 ^ 53) :
    ∃ c, Amounts (0.1 * n.toFloat) c ∧ Near (2 ^ 51) (units n 0) (units n 0) (10 * c) := by
  obtain ⟨m, e, h, hx, hunits⟩ := unpack_toFloat hn hsmall
  obtain ⟨he, hfull⟩ := h.full_of_one_le (by rw [hunits]; exact units_mono hn 0)
  have hlong : 52 < (0x1999999999999A * m).log2 := (Nat.le_log2 (by omega)).mpr (by omega)
  obtain ⟨m', e', h', hround, hnear⟩ := round_long .positive hlong (by omega : -1074 ≤ -56 + e)
  obtain ⟨q, hq⟩ : ∃ q, m * 2 ^ (-56 + e + 1074).toNat = q := ⟨_, rfl⟩
  have hwhole : units n 0 = q * 2 ^ 56 := by
    have hexponents : (e + 1074).toNat = (-56 + e + 1074).toNat + 56 := by omega
    rw [← hunits, units, hexponents, pow_add, ← mul_assoc, hq]
  have hproduct : units (0x1999999999999A * m) (-56 + e) = 0x1999999999999A * q := by
    rw [units_mul, units, hq]
  rw [hproduct] at hnear
  obtain ⟨hupper, hlower⟩ := hnear
  have hlimit := units_lt_limit (n := 2 * n) (by omega)
  rw [units_mul] at hlimit
  have hmul : (0.1 * n.toFloat).toModel.unpack = (Float.Model.pack (UnpackedFloat.mul
      Format.binary64 (0.1 : Float).toModel.unpack n.toFloat.toModel.unpack)).unpack := rfl
  have hrounded : UnpackedFloat.mul Format.binary64 (.finite .positive 0x1999999999999A (-56)
      (by decide)) (.finite .positive m e h.pos) = .finite .positive m' e' h'.pos := hround
  rw [hx, unpack_tenth, hrounded] at hmul
  refine ⟨units m' e', amounts_pack h' (by omega) hmul, ?_, ?_⟩ <;> omega

theorem Fraction.round_of_near {p : Fraction} {n : Nat} (hden : 0 < p.den)
    (hhigh : 2 * p.num < (2 * n + 1) * p.den) (hlow : 2 * n * p.den < 2 * p.num + p.den) :
    p.round = n := by
  have hdiv : p.den * (p.num / p.den) + p.num % p.den = p.num := Nat.div_add_mod _ _
  have hmod := Nat.mod_lt p.num hden
  have hcompare {a b : Nat} (h : a * p.den < b * p.den) : a < b := Nat.lt_of_mul_lt_mul_right h
  unfold Fraction.round
  generalize p.num / p.den = low at *
  generalize p.num % p.den = rest at *
  simp only
  split
  · have h₁ : 2 * low < 2 * n + 1 := hcompare (by linarith)
    have h₂ : 2 * n < 2 * low + 2 := hcompare (by linarith)
    omega
  · split
    · have h₁ : 2 * low + 1 < 2 * n + 1 := hcompare (by linarith)
      have h₂ : 2 * n < 2 * low + 3 := hcompare (by linarith)
      omega
    · have h₁ : 2 * low + 1 < 2 * n + 1 := hcompare (by linarith)
      have h₂ : 2 * n < 2 * low + 2 := hcompare (by linarith)
      omega

theorem scaled_eq_units {m : Nat} {e : Int} (he : -1074 ≤ e) :
    (Fraction.scaled m 2 e).num * units 1 0 = units m e * (Fraction.scaled m 2 e).den := by
  unfold Fraction.scaled units
  split
  next hwhole =>
    have hexponents : (e + 1074).toNat = e.toNat + (0 + 1074 : Int).toNat := by omega
    rw [hexponents, pow_add, Nat.one_mul, Nat.mul_one, ← mul_assoc]
    rfl
  next hfraction =>
    have hexponents : (0 + 1074 : Int).toNat = (e + 1074).toNat + (-e).toNat := by omega
    rw [hexponents, pow_add, Nat.one_mul, ← mul_assoc]
    rfl

/-- A number is shown with as many hundredths as it is less than half of one away from. -/
theorem twoPlaces_of_near {x : Float} {c n : Nat} (hx : Amounts x c)
    (hhigh : 2 * (100 * c) < 2 * units n 0 + units 1 0)
    (hlow : 2 * units n 0 < 2 * (100 * c) + units 1 0) :
    twoPlaces x = toString (n / 100) ++ "." ++ String.ofList (twoDigits (n % 100)) := by
  obtain ⟨m, e, hview, he, hunits⟩ := hx.view
  have hden : 0 < (Fraction.scaled (100 * m) 2 e).den := Fraction.den_scaled_pos (by decide) _ _
  have hscaled := scaled_eq_units (m := 100 * m) he
  have hwhole : units n 0 = n * units 1 0 := by
    rw [← units_mul, Nat.mul_one]
  rw [units_mul, hunits] at hscaled
  rw [hwhole] at hhigh hlow
  have hround : (Fraction.scaled (100 * m) 2 e).round = n := by
    refine Fraction.round_of_near hden ?_ ?_ <;> apply Nat.lt_of_mul_lt_mul_right
    · calc 2 * (Fraction.scaled (100 * m) 2 e).num * units 1 0
        _ = 2 * (100 * c) * (Fraction.scaled (100 * m) 2 e).den := by
          rw [mul_assoc, hscaled, ← mul_assoc]
        _ < (2 * (n * units 1 0) + units 1 0) * (Fraction.scaled (100 * m) 2 e).den :=
          Nat.mul_lt_mul_of_pos_right hhigh hden
        _ = (2 * n + 1) * (Fraction.scaled (100 * m) 2 e).den * units 1 0 := by ring
    · calc 2 * n * (Fraction.scaled (100 * m) 2 e).den * units 1 0
        _ = 2 * (n * units 1 0) * (Fraction.scaled (100 * m) 2 e).den := by ring
        _ < (2 * (100 * c) + units 1 0) * (Fraction.scaled (100 * m) 2 e).den :=
          Nat.mul_lt_mul_of_pos_right hlow hden
        _ = (2 * (Fraction.scaled (100 * m) 2 e).num + (Fraction.scaled (100 * m) 2 e).den) *
            units 1 0 := by
          rw [Nat.add_mul, Nat.add_mul, mul_assoc 2 _ (units 1 0), hscaled]
          ring
  unfold twoPlaces
  rw [hview]
  simp only [hround, Bool.false_eq_true, if_false, String.empty_append]

end Conventions.Number
