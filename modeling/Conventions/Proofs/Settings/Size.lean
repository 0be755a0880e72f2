import Conventions.Proofs.Number.Scaling
import Conventions.Proofs.Settings.Value

/-!
# The size limit as a number of octets

Settings are accepted with any size above zero, and with one that is not a number. A whole size
always has a number of octets. A real one is multiplied by 1024 twice, which is exact, and its
fractional part is dropped; so it has a number of octets unless it is not a number, infinite or
at least `2 ^ 1004`, as then the product is not finite.
-/
namespace Conventions

open Number

/-- The lowest exponent of a number, with its sign changed. -/
def Number.fractionDigits : Nat := 1074

/-- How many of the smallest units make one. -/
def Number.unitsInOne : Nat := 2 ^ fractionDigits

theorem Number.floor_scaled {m : Nat} {e : Int} (h : -1074 ≤ e) :
    (Fraction.scaled m 2 e).floor = units m e / unitsInOne := by
  unfold Fraction.scaled units unitsInOne
  split
  next hwhole =>
    have hexponent : (e + 1074).toNat = e.toNat + fractionDigits := by
      unfold fractionDigits
      omega
    rw [hexponent, pow_add, ← mul_assoc, Nat.mul_div_cancel _ (Nat.two_pow_pos _)]
    exact Nat.div_one _
  next hfraction =>
    have hexponent : fractionDigits = (-e).toNat + (e + 1074).toNat := by
      unfold fractionDigits
      omega
    rw [hexponent, pow_add, Nat.mul_div_mul_right _ _ (Nat.two_pow_pos _)]
    rfl

theorem Number.low_of_view {x : Float} {negative : Bool} {m : Nat} {e : Int}
    (h : view x = .finite negative m e) : -1074 ≤ e := by
  unfold view at h
  split at h
  · split at h <;> cases h
  · split at h
    · obtain ⟨-, -, rfl⟩ := View.finite.inj h
      exact Int.le_refl _
    · obtain ⟨-, -, rfl⟩ := View.finite.inj h
      omega

theorem truncated_eq (x : Float) : truncated x =
    match (view x).magnitude with
    | .notANumber => .error .notANumber
    | .infinite => .error .infinite
    | .units n =>
      .ok (if (view x).isNegative then -(n / unitsInOne : Nat) else (n / unitsInOne : Nat)) := by
  unfold truncated
  cases hx : view x with
  | notANumber => rfl
  | infinite negative => rfl
  | finite negative m e =>
    simp only [View.magnitude, View.isNegative, floor_scaled (low_of_view hx)]
    rfl

namespace Size

/-- The factor between a size and its octets. -/
def octetsInOne : Nat := 1024 * 1024

/-- Sizes that have a number of octets: all whole ones, and real ones below `2 ^ 1004`. -/
def Bounded : Size → Prop
  | .whole _ => True
  | .real x => ∃ n, (view x).magnitude = .units n ∧ n * octetsInOne < unitLimit

/-- The octets of a real size are its exact multiple without the fractional part. -/
theorem octets_real (x : Float) : (Size.real x).octets =
    match (view x).magnitude.times octetsInOne with
    | .notANumber => .error .notANumber
    | .infinite => .error .infinite
    | .units n =>
      .ok (if (view x).isNegative then -(n / unitsInOne : Nat) else (n / unitsInOne : Nat)) := by
  obtain ⟨hfirst, hsign⟩ := view_mul_kilo x
  obtain ⟨hsecond, hsign'⟩ := view_mul_kilo (x * 1024.0)
  rw [hfirst, Magnitude.times_times _ (by decide)] at hsecond
  rw [octets, truncated_eq, hsecond, hsign', hsign]
  rfl

/-- A size has a number of octets exactly if it is bounded. -/
theorem bounded_iff {size : Size} : size.Bounded ↔ ∃ n, size.octets = .ok n := by
  cases size with
  | whole n => exact iff_of_true trivial ⟨_, rfl⟩
  | real x =>
    rw [octets_real]
    constructor
    · rintro ⟨n, hn, hsmall⟩
      rw [Magnitude.times_eq_units.mpr ⟨n, hn, hsmall, rfl⟩]
      exact ⟨_, rfl⟩
    · rintro ⟨k, hk⟩
      cases hx : (view x).magnitude.times octetsInOne with
      | notANumber => rw [hx] at hk; cases hk
      | infinite => rw [hx] at hk; cases hk
      | units m =>
        obtain ⟨n, hn, hsmall, -⟩ := Magnitude.times_eq_units.mp hx
        exact ⟨n, hn, hsmall⟩

theorem not_bounded_iff {size : Size} : ¬size.Bounded ↔ ∃ f, size.octets = .error f := by
  rw [bounded_iff]
  cases size.octets <;> simp

theorem not_negative {x : Float} (h : (Size.real x).tooSmall = false) :
    (view x).isNegative = false := by
  have hle : x.toModel.unpack.le (0.0 : Float).toModel.unpack = false := by
    have hnot : ¬x ≤ 0.0 := of_decide_eq_false h
    exact Bool.eq_false_iff.mpr fun hle => hnot (decide_eq_true hle)
  rw [view_eq]
  rw [unpack_zero] at hle
  cases hx : x.toModel.unpack with
  | notANumber => rfl
  | infinity s => rw [hx] at hle; cases s <;> first | rfl | cases hle
  | zero s => rw [hx] at hle; cases s <;> cases hle
  | finite s m e hm => rw [hx] at hle; cases s <;> first | rfl | cases hle

theorem octets_nonneg {size : Size} (h : size.tooSmall = false) {n : Int}
    (hn : size.octets = .ok n) : 0 ≤ n := by
  cases size with
  | whole k =>
    have hpos : 0 < k := by simpa [tooSmall] using h
    obtain rfl := Except.ok.inj hn
    omega
  | real x =>
    rw [octets_real, not_negative h] at hn
    cases hm : (view x).magnitude.times octetsInOne with
    | notANumber => rw [hm] at hn; cases hn
    | infinite => rw [hm] at hn; cases hn
    | units k =>
      rw [hm] at hn
      exact Except.ok.inj hn ▸ Int.natCast_nonneg _

end Size

end Conventions
