import Mathlib
import Conventions.Number.Binary64

/-!
# Multiplying by 1024

A binary64 number is a sign and a number of smallest units, each `2 ^ -1074`, unless it is
infinite or not a number. Multiplied by 1024 it keeps its sign and has 1024 times the units:
nothing is rounded, as the factor is a power of two. Only if the product has `2 ^ 2098` units
or more, which is `2 ^ 1024`, it is infinite.
-/
namespace Conventions.Number

open Float.Model Float.Model.UnpackedFloat

/-- What an unpacked number stands for. -/
def View.ofUnpacked : UnpackedFloat → View
  | .notANumber => .notANumber
  | .infinity s => .infinite (s == .negative)
  | .zero s => .finite (s == .negative) 0 (-1074)
  | .finite s m e _ => .finite (s == .negative) m e

/-- The bits of a number. -/
def bits (x : Float) : BitVec Format.binary64.numBits := x.toModel.toBits.toBitVec

theorem fractionBits_eq (x : Float) : fractionBits x = (unpackMantissa (bits x)).toNat := by
  unfold fractionBits unpackMantissa bits Float.toBits
  simp

theorem exponentBits_eq (x : Float) : exponentBits x = (unpackExponent (bits x)).toNat := by
  unfold exponentBits unpackExponent bits Float.toBits
  simp [Nat.shiftRight_eq_div_pow]

theorem sign_ofBitVec (b : BitVec 1) : (Sign.ofBitVec b == .negative) = (b.toNat == 1) := by
  revert b
  decide

theorem signBit_eq (x : Float) :
    signBit x = (Sign.ofBitVec (unpackSign (bits x)) == .negative) := by
  have hlt := x.toModel.toBits.toNat_lt
  rw [sign_ofBitVec]
  unfold signBit unpackSign bits Float.toBits
  simp [Nat.shiftRight_eq_div_pow]
  omega

theorem toNat_append_one (b : BitVec 52) : (1#1 ++ b).toNat = 2 ^ 52 + b.toNat := by
  rw [BitVec.toNat_append, ← Nat.shiftLeft_add_eq_or_of_lt b.isLt]
  rfl

/-- How the exponent field tells the kinds of numbers apart. -/
theorem exponent_eq_iff (e : BitVec 11) :
    (e = -1#_ ↔ e.toNat = 2047) ∧ (e = 0#_ ↔ e.toNat = 0) := by
  rw [← BitVec.toNat_inj, ← BitVec.toNat_inj]
  exact ⟨Iff.rfl, Iff.rfl⟩

theorem mantissa_eq_zero_iff (m : BitVec 52) : m = 0#_ ↔ m.toNat = 0 := by
  rw [← BitVec.toNat_inj]
  exact Iff.rfl

/-- What a number stands for is read off its fields. -/
theorem view_eq (x : Float) : view x = .ofUnpacked x.toModel.unpack := by
  show _ = View.ofUnpacked (UnpackedFloat.unpack Format.binary64 (bits x))
  obtain ⟨hones, hzero⟩ := exponent_eq_iff (unpackExponent (bits x))
  unfold view UnpackedFloat.unpack
  rw [fractionBits_eq, exponentBits_eq, signBit_eq]
  simp only [hones, hzero, mantissa_eq_zero_iff]
  by_cases hspecial : (unpackExponent (bits x)).toNat = 2047
  · rw [if_pos hspecial, if_pos hspecial]
    split <;> rfl
  · rw [if_neg hspecial, if_neg hspecial]
    by_cases hsub : (unpackExponent (bits x)).toNat = 0
    · rw [if_pos hsub, if_pos hsub]
      split
      next hm => rw [hm]; rfl
      next => rw [hsub]; rfl
    · rw [if_neg hsub, if_neg hsub, View.ofUnpacked, toNat_append_one]
      rfl

/-- Mantissa and exponent of a positive number as they are after rounding: the mantissa has 53
bits, or fewer at the lowest exponent. -/
structure Canonical (m : Nat) (e : Int) : Prop where
  pos : 0 < m
  small : m < 2 ^ 53
  low : -1074 ≤ e
  full : 2 ^ 52 ≤ m ∨ e = -1074

theorem canonical_of_unpack {b : BitVec Format.binary64.numBits} {s : Sign} {m : Nat} {e : Int}
    {hm : 0 < m} (h : UnpackedFloat.unpack Format.binary64 b = .finite s m e hm) :
    Canonical m e := by
  obtain ⟨hones, hzero⟩ := exponent_eq_iff (unpackExponent b)
  have hfield := (unpackMantissa b).isLt
  unfold UnpackedFloat.unpack at h
  simp only [hones, hzero] at h
  split at h
  · split at h <;> cases h
  · split at h
    next hsub =>
      split at h
      · cases h
      · obtain ⟨-, rfl, rfl⟩ := UnpackedFloat.finite.inj h
        exact ⟨hm, hfield.trans (by decide), by rw [hsub]; decide, Or.inr (by rw [hsub]; rfl)⟩
    next hnormal =>
      obtain ⟨-, rfl, rfl⟩ := UnpackedFloat.finite.inj h
      rw [toNat_append_one] at hm ⊢
      refine ⟨hm, ?_, ?_, Or.inl (Nat.le_add_right _ _)⟩
      · change (unpackMantissa b).toNat < 2 ^ 52 at hfield
        omega
      · show -1074 ≤ ((unpackExponent b).toNat : Int) - ((1023 : Nat) + (52 : Nat))
        omega

theorem sign_of_packed {spec : Format} (s : Sign) (e : BitVec spec.exponentBits)
    (m : BitVec spec.mantissaBitsWithoutImplicit) :
    Sign.ofBitVec (unpackSign (packComponents spec s e m)) = s := by
  have hbits : unpackSign (packComponents spec s e m) = s.toBitVec := by
    ext i hi
    obtain rfl : i = 0 := by omega
    simp [unpackSign, packComponents, BitVec.getLsbD_append, BitVec.getElem_append]
  rw [hbits]
  cases s <;> rfl

theorem log2_eq_iff_full {m : Nat} (h : m < 2 ^ 53) :
    m.log2 + 1 = Format.binary64.mantissaBits ↔ 2 ^ 52 ≤ m := by
  show m.log2 + 1 = 53 ↔ _
  by_cases hm : m = 0
  · subst hm
    decide
  · have hless : m.log2 < 53 := (Nat.log2_lt hm).mpr h
    have hfull := Nat.le_log2 (k := 52) hm
    omega

section
variable {m : Nat} {e : Int} (h : Canonical m e) (s : Sign)

theorem biased_eq (e : Int) :
    e + Format.binary64.exponentBias + (52 : Nat) = e + 1075 :=
  Int.add_assoc e 1023 52

include h in
theorem unpack_pack_normal (hfits : e ≤ 971) (hfull : 2 ^ 52 ≤ m) :
    UnpackedFloat.unpack Format.binary64
      (UnpackedFloat.pack Format.binary64 (.finite s m e h.pos)) = .finite s m e h.pos := by
  have hlow := h.low
  have hsmall := h.small
  have hroom : ¬2 ^ 11 ≤ (e + 1075).toNat + 1 := by omega
  have hexponent : (BitVec.ofNat 11 (e + 1075).toNat).toNat = (e + 1075).toNat := by
    rw [BitVec.toNat_ofNat]
    omega
  have hmantissa : (1#1 ++ BitVec.ofNat 52 m).toNat = m := by
    rw [toNat_append_one, BitVec.toNat_ofNat]
    omega
  obtain ⟨hones, hzero⟩ := exponent_eq_iff (BitVec.ofNat 11 (e + 1075).toNat)
  unfold UnpackedFloat.pack
  simp only [biased_eq]
  rw [if_neg hroom, if_pos ((log2_eq_iff_full h.small).mpr hfull)]
  unfold UnpackedFloat.unpack
  simp only [unpackMantissa_packComponents, unpackExponent_packComponents, sign_of_packed, hones,
    hzero, hexponent]
  rw [if_neg (by omega), if_neg (by omega)]
  simp only [hmantissa]
  congr 1
  show ((e + 1075).toNat : Int) - ((1023 : Nat) + (52 : Nat)) = e
  omega

include h in
theorem unpack_pack_subnormal (hsub : m < 2 ^ 52) :
    UnpackedFloat.unpack Format.binary64
      (UnpackedFloat.pack Format.binary64 (.finite s m e h.pos)) = .finite s m e h.pos := by
  have hpos := h.pos
  have he : e = -1074 := h.full.resolve_left (Nat.not_le_of_lt hsub)
  have hroom : ¬2 ^ 11 ≤ (e + 1075).toNat + 1 := by omega
  have hmantissa : (BitVec.ofNat 52 m).toNat = m := by
    rw [BitVec.toNat_ofNat]
    omega
  have hnonzero : BitVec.ofNat 52 m ≠ 0#52 := by
    rw [ne_eq, mantissa_eq_zero_iff]
    omega
  unfold UnpackedFloat.pack
  simp only [biased_eq]
  rw [if_neg hroom, if_neg (mt (log2_eq_iff_full h.small).mp (Nat.not_le_of_lt hsub))]
  unfold UnpackedFloat.unpack
  simp only [unpackMantissa_packComponents, unpackExponent_packComponents, sign_of_packed]
  rw [if_neg (by decide), if_pos trivial, dif_neg hnonzero]
  simp only [hmantissa]
  congr 1
  rw [he]
  rfl

include h in
theorem unpack_pack_large (hlarge : 971 < e) :
    UnpackedFloat.unpack Format.binary64
      (UnpackedFloat.pack Format.binary64 (.finite s m e h.pos)) = .infinity s := by
  have hfar : 2 ^ 11 ≤ (e + 1075).toNat + 1 := by omega
  unfold UnpackedFloat.pack
  simp only [biased_eq]
  rw [if_pos hfar]
  unfold UnpackedFloat.unpack packedInfinity
  simp only [unpackMantissa_packComponents, unpackExponent_packComponents, sign_of_packed]
  rfl

end

/-- A rounded number is packed without loss, unless it is too large. -/
theorem unpack_pack {m : Nat} {e : Int} (h : Canonical m e) (s : Sign) :
    UnpackedFloat.unpack Format.binary64
        (UnpackedFloat.pack Format.binary64 (.finite s m e h.pos)) =
      if e ≤ 971 then .finite s m e h.pos else .infinity s := by
  split
  next hfits =>
    rcases Nat.lt_or_ge m (2 ^ 52) with hsub | hfull
    · exact unpack_pack_subnormal h s hsub
    · exact unpack_pack_normal h s hfits hfull
  next hlarge => exact unpack_pack_large h s (Int.not_le.mp hlarge)

/-- Zeros at the end of a mantissa are shifted out without a trace. -/
theorem shiftRight_exact (m n : Nat) :
    (⟨m * 2 ^ n, false, false⟩ : ExtendedMantissa) >>> n = ⟨m, false, false⟩ := by
  show Nat.repeat _ n _ = _
  induction n generalizing m with
  | zero => simp [Nat.repeat]
  | succ n ih =>
    have hdouble : m * 2 ^ (n + 1) = 2 * m * 2 ^ n := by ring
    rw [Nat.repeat, hdouble, ih]
    simp [ExtendedMantissa.shiftRightOne]

theorem shiftToExponent_exact {m n : Nat} {e t : Int} (ht : e + n = t) :
    shiftToExponent (m * 2 ^ n) e .exact t = (⟨m, false, false⟩, t) := by
  have hn : (t - e).toNat = n := by omega
  unfold shiftToExponent
  simp only [hn, ExtendedMantissa.ofMantissaAndAccuracy, shiftRight_exact, ht]

theorem log2_mul_two_pow {m : Nat} (h : 0 < m) (n : Nat) : (m * 2 ^ n).log2 = m.log2 + n := by
  rw [Nat.log2_eq_iff (by positivity)]
  constructor
  · rw [pow_add]
    exact Nat.mul_le_mul_right _ (Nat.log2_self_le h.ne')
  · rw [Nat.add_right_comm, pow_add]
    exact Nat.mul_lt_mul_of_pos_right Nat.lt_log2_self (by positivity)

theorem targetExponent_eq (m : Nat) (e : Int) :
    Format.binary64.targetExponent (totalExponent m e) = max (m.log2 + e - 52) (-1074) := by
  show max ((m.log2 + 1 + e) - (53 : Nat)) (3 - 2 ^ (11 - 1) - (53 : Nat)) = _
  omega

theorem shiftToTargetExponent_exact {m n : Nat} {e : Int} (hm : 0 < m)
    (h : e + n = max (m.log2 + n + e - 52) (-1074)) :
    shiftToTargetExponent Format.binary64 (m * 2 ^ n) e .exact = (⟨m, false, false⟩, e + n) := by
  unfold shiftToTargetExponent
  simp only [targetExponent_eq, log2_mul_two_pow hm]
  rw [Nat.cast_add, ← h]
  exact shiftToExponent_exact rfl

theorem shiftToTargetExponent_self {m : Nat} {e : Int} (hm : 0 < m)
    (h : e = max (m.log2 + e - 52) (-1074)) :
    shiftToTargetExponent Format.binary64 m e .exact = (⟨m, false, false⟩, e) := by
  have hexact := shiftToTargetExponent_exact (n := 0) (e := e) hm (by omega)
  rwa [pow_zero, mul_one, Nat.cast_zero, add_zero] at hexact

/-- Rounding brings a number to its exponent, and once more after a carry. -/
theorem round_of_shifts {m r m' : Nat} {e e₁ e' : Int} {em : ExtendedMantissa}
    (hfirst : shiftToTargetExponent Format.binary64 m e .exact = (em, e₁))
    (hr : em.roundedMantissa = r)
    (hsecond : shiftToTargetExponent Format.binary64 r e₁ .exact = (⟨m', false, false⟩, e'))
    (hm : 0 < m') (s : Sign) :
    roundWithAccuracy Format.binary64 s m e .exact = .finite s m' e' hm := by
  unfold roundWithAccuracy
  simp only [hfirst, hr, hsecond]
  rw [dif_neg hm.ne']

/-- A number that is not rounded by being brought to its exponent. -/
theorem round_exact {m n : Nat} {e : Int} (hm : 0 < m) (s : Sign)
    (h : e + n = max (m.log2 + n + e - 52) (-1074)) :
    roundWithAccuracy Format.binary64 s (m * 2 ^ n) e .exact = .finite s m (e + n) hm := by
  have hsame := shiftToTargetExponent_self (e := e + n) hm (by omega)
  exact round_of_shifts (shiftToTargetExponent_exact hm h) rfl hsame hm s

/-- A number in the smallest units. -/
def units (m : Nat) (e : Int) : Nat := m * 2 ^ (e + 1074).toNat

theorem mul_kilo {m : Nat} {e : Int} (h : Canonical m e) (s : Sign) :
    ∃ m' e', ∃ h' : Canonical m' e', units m' e' = units m e * 1024 ∧
      UnpackedFloat.mul Format.binary64 (.finite s m e h.pos)
        (.finite .positive (2 ^ 52) (-42) (by decide)) = .finite s m' e' h'.pos := by
  have hlow := h.low
  have hk : m.log2 ≤ 52 := Nat.lt_succ_iff.mp ((Nat.log2_lt h.pos.ne').mpr h.small)
  -- As many zeros are shifted out as bring the number to its exponent.
  obtain ⟨n, hn⟩ : ∃ n : Nat, (n : Int) = max (m.log2 : Int) (-1032 - e) :=
    ⟨_, Int.toNat_of_nonneg (by omega)⟩
  have hn52 : n ≤ 52 := by omega
  have hzeros : m * 2 ^ 52 = m * 2 ^ (52 - n) * 2 ^ n := by
    rw [mul_assoc, ← pow_add, Nat.sub_add_cancel hn52]
  have hpos : 0 < m * 2 ^ (52 - n) := Nat.mul_pos h.pos (by positivity)
  have hlog := log2_mul_two_pow h.pos (52 - n)
  have hsmall : m * 2 ^ (52 - n) < 2 ^ 53 := by
    rw [← Nat.log2_lt hpos.ne', hlog]
    omega
  refine ⟨m * 2 ^ (52 - n), e - 42 + n, ⟨hpos, hsmall, by omega, ?_⟩, ?_, ?_⟩
  · rcases Nat.lt_or_ge m.log2 n with hless | hge
    · right
      omega
    · left
      rw [← Nat.le_log2 hpos.ne', hlog]
      omega
  · have hexponents : (52 - n) + (e - 42 + n + 1074).toNat = (e + 1074).toNat + 10 := by omega
    unfold units
    rw [mul_assoc, ← pow_add, hexponents, pow_add]
    ring
  · show roundWithAccuracy Format.binary64 (s * .positive) (m * 2 ^ 52) (e + -42) .exact = _
    have hsign : s * .positive = s := by cases s <;> rfl
    rw [hsign, hzeros, round_exact hpos s (by rw [hlog]; push_cast; omega)]
    rfl

/-- A number without its sign, in the smallest units. -/
inductive Magnitude where
  | notANumber
  | infinite
  | units (n : Nat)

def View.magnitude : View → Magnitude
  | .notANumber => .notANumber
  | .infinite _ => .infinite
  | .finite _ m e => .units (Number.units m e)

def View.isNegative : View → Bool
  | .notANumber => false
  | .infinite negative => negative
  | .finite negative _ _ => negative

/-- By how much the highest exponent is above the lowest. -/
def exponentRange : Nat := 2045

/-- How many units there are in `2 ^ 1024`, which no finite number reaches. -/
def unitLimit : Nat := 2 ^ (53 + exponentRange)

/-- A product with a factor that does not make rounding necessary. -/
def Magnitude.times (k : Nat) : Magnitude → Magnitude
  | .notANumber => .notANumber
  | .infinite => .infinite
  | .units n => if n * k < unitLimit then .units (n * k) else .infinite

theorem Magnitude.times_eq_units {a : Magnitude} {k n : Nat} :
    a.times k = .units n ↔ ∃ m, a = .units m ∧ m * k < unitLimit ∧ n = m * k := by
  cases a with
  | notANumber => exact iff_of_false nofun nofun
  | infinite => exact iff_of_false nofun nofun
  | units m =>
    rw [times]
    by_cases hsmall : m * k < unitLimit
    · rw [if_pos hsmall]
      constructor
      · exact fun h => ⟨m, rfl, hsmall, (units.inj h).symm⟩
      · rintro ⟨_, hm, -, rfl⟩
        rw [units.inj hm]
    · rw [if_neg hsmall]
      refine iff_of_false nofun ?_
      rintro ⟨_, hm, hless, -⟩
      exact hsmall (units.inj hm ▸ hless)

theorem Magnitude.times_times (a : Magnitude) {j k : Nat} (hk : 0 < k) :
    (a.times j).times k = a.times (j * k) := by
  cases a with
  | notANumber => rfl
  | infinite => rfl
  | units n =>
    simp only [times, ← mul_assoc]
    by_cases hsmall : n * j < unitLimit
    · rw [if_pos hsmall]
    · have hlarge : ¬n * j * k < unitLimit :=
        fun h => hsmall (Nat.lt_of_le_of_lt (Nat.le_mul_of_pos_right _ hk) h)
      rw [if_neg hsmall, if_neg hlarge]

theorem Canonical.fits_iff {m : Nat} {e : Int} (h : Canonical m e) :
    e ≤ 971 ↔ units m e < unitLimit := by
  have hlow := h.low
  constructor
  · intro he
    have hexponent : (e + 1074).toNat ≤ exponentRange := by
      unfold exponentRange
      omega
    calc units m e < 2 ^ 53 * 2 ^ (e + 1074).toNat :=
          Nat.mul_lt_mul_of_pos_right h.small (by positivity)
      _ ≤ 2 ^ 53 * 2 ^ exponentRange :=
          Nat.mul_le_mul_left _ (Nat.pow_le_pow_right (by decide) hexponent)
      _ = unitLimit := (pow_add 2 53 exponentRange).symm
  · intro hunits
    by_contra hlarge
    have hexponent : exponentRange + 1 ≤ (e + 1074).toNat := by
      unfold exponentRange
      omega
    have hfull : 2 ^ 52 ≤ m := h.full.resolve_right (by omega)
    refine absurd hunits (Nat.not_lt_of_le ?_)
    calc unitLimit = 2 ^ (52 + (exponentRange + 1)) := by rw [unitLimit]; congr 1
      _ = 2 ^ 52 * 2 ^ (exponentRange + 1) := pow_add 2 52 (exponentRange + 1)
      _ ≤ m * 2 ^ (e + 1074).toNat :=
          Nat.mul_le_mul hfull (Nat.pow_le_pow_right (by decide) hexponent)

theorem unpack_zero : (0.0 : Float).toModel.unpack = .zero .positive := by
  have hbits : (0.0 : Float).toModel.toBits = 0 := by decide
  unfold Float.Model.unpack
  rw [hbits]
  rfl

theorem unpack_kilo : (1024.0 : Float).toModel.unpack =
    .finite .positive (2 ^ 52) (-42) (by decide) := by
  have hbits : (1024.0 : Float).toModel.toBits = 0x4090000000000000 := by decide
  unfold Float.Model.unpack
  rw [hbits]
  rfl

/-- The sign stays, and the magnitude is multiplied. -/
theorem view_mul_kilo (x : Float) :
    (view (x * 1024.0)).magnitude = (view x).magnitude.times 1024 ∧
      (view (x * 1024.0)).isNegative = (view x).isNegative := by
  have hmul : (x * 1024.0).toModel.unpack = UnpackedFloat.unpack Format.binary64
      (UnpackedFloat.pack Format.binary64
        (UnpackedFloat.mul Format.binary64 x.toModel.unpack (1024.0 : Float).toModel.unpack)) := rfl
  rw [view_eq, view_eq, hmul, unpack_kilo]
  cases hx : x.toModel.unpack with
  | notANumber => exact ⟨rfl, rfl⟩
  | infinity s => cases s <;> exact ⟨rfl, rfl⟩
  | zero s =>
    have hproduct : UnpackedFloat.unpack Format.binary64 (UnpackedFloat.pack Format.binary64
        (UnpackedFloat.mul Format.binary64 (.zero s)
          (.finite .positive (2 ^ 52) (-42) (by decide)))) = .zero s := by
      cases s <;> rfl
    have hlimit : 0 < unitLimit := Nat.two_pow_pos _
    have hunits : units 0 (-1074) = 0 := Nat.zero_mul _
    rw [hproduct]
    simp [View.ofUnpacked, View.magnitude, View.isNegative, Magnitude.times, hunits, hlimit]
  | finite s m e hm =>
    have h := canonical_of_unpack hx
    obtain ⟨m', e', h', hunits, hproduct⟩ := mul_kilo h s
    rw [hproduct, unpack_pack h' s]
    by_cases hfits : e' ≤ 971
    · have hsmall := h'.fits_iff.mp hfits
      rw [hunits] at hsmall
      rw [if_pos hfits]
      simp [View.ofUnpacked, View.magnitude, View.isNegative, Magnitude.times, hunits, hsmall]
    · have hlarge := mt h'.fits_iff.mpr hfits
      rw [hunits] at hlarge
      rw [if_neg hfits]
      simp [View.ofUnpacked, View.magnitude, View.isNegative, Magnitude.times, hlarge]

end Conventions.Number
