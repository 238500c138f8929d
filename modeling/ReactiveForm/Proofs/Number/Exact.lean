import Mathlib
import ReactiveForm.Number.Magnitude

/-!
# Exact values

A finite floating-point number stands for a rational number: a whole number times a power of two,
with a sign. Its magnitude consists of these two, so the whole number in the magnitude is the
rational number rounded down.
-/

set_option autoImplicit false

namespace ReactiveForm.Number

open Float.Model Float.Model.UnpackedFloat

/-- The rational number that a finite number stands for, and zero for the others. -/
def exactOf : UnpackedFloat → ℚ
  | .finite .positive m e _ => m * 2 ^ e
  | .finite .negative m e _ => -(m * 2 ^ e)
  | .zero _ | .infinity _ | .notANumber => 0

def exact (x : Float) : ℚ := exactOf x.toModel.unpack

variable {x : Float}

/-! ## Magnitudes -/

theorem toNat_unpackExponent (x : Float) :
    (@unpackExponent .binary64 x.toModel.toBits.toBitVec).toNat
      = x.toBits.toNat / powerOfTwo 52 % powerOfTwo 11 := by
  rw [unpackExponent_def, BitVec.extractLsb'_toNat, Nat.shiftRight_eq_div_pow]
  rfl

theorem toNat_unpackMantissa (x : Float) :
    (@unpackMantissa .binary64 x.toModel.toBits.toBitVec).toNat
      = x.toBits.toNat % powerOfTwo 52 := by
  rw [unpackMantissa_def, BitVec.extractLsb'_toNat, Nat.shiftRight_zero]
  rfl

/-- The magnitude of a finite number is its mantissa with its exponent. -/
theorem ofFloat_of_finite {s : Sign} {m : Nat} {e : Int} {hm : 0 < m}
    (h : x.toModel.unpack = .finite s m e hm) : Magnitude.ofFloat x = ⟨m, e⟩ := by
  unfold Magnitude.ofFloat
  simp only [← toNat_unpackExponent, ← toNat_unpackMantissa]
  unfold Float.Model.unpack UnpackedFloat.unpack at h
  dsimp only at h
  split at h
  · split at h <;> cases h
  · split at h
    next hexponent =>
      split at h
      · cases h
      · cases h
        rw [hexponent]
        rfl
    next hexponent =>
      cases h
      have hne : (@unpackExponent .binary64 x.toModel.toBits.toBitVec).toNat ≠ 0 := by
        intro hzero
        exact hexponent (BitVec.eq_of_toNat_eq (by simpa using hzero))
      -- the first bit, which is not stored, is put back
      have hfull : (1#1 ++ @unpackMantissa .binary64 x.toModel.toBits.toBitVec).toNat
          = (@unpackMantissa .binary64 x.toModel.toBits.toBitVec).toNat
              + powerOfTwo 52 := by
        rw [BitVec.toNat_append, ← Nat.shiftLeft_add_eq_or_of_lt (BitVec.isLt _), Nat.add_comm]
        rfl
      rw [if_neg hne, hfull]
      rfl

theorem ofFloat_of_zero {s : Sign} (h : x.toModel.unpack = .zero s) :
    Magnitude.ofFloat x = ⟨0, -1074⟩ := by
  unfold Magnitude.ofFloat
  simp only [← toNat_unpackExponent, ← toNat_unpackMantissa]
  unfold Float.Model.unpack UnpackedFloat.unpack at h
  dsimp only at h
  split at h
  · split at h <;> cases h
  · split at h
    next hexponent =>
      split at h
      next hmantissa =>
        rw [hexponent, hmantissa]
        rfl
      · cases h
    · cases h

/-! ## Whole parts -/

theorem whole_eq_floor (m : Nat) (e : Int) :
    (⟨m, e⟩ : Magnitude).whole = ⌊(m : ℚ) * 2 ^ e⌋₊ := by
  unfold Magnitude.whole
  dsimp only
  obtain ⟨n, rfl | rfl⟩ := e.eq_nat_or_neg
  · have hnone : (-(n : Int)).toNat = 0 := by omega
    have hwhole : (m : ℚ) * 2 ^ n = (m * powerOfTwo n : Nat) := by
      rw [powerOfTwo, Nat.pow_eq]
      push_cast
      rfl
    rw [hnone, Int.toNat_natCast, zpow_natCast, hwhole, Nat.floor_natCast]
    exact Nat.div_one _
  · have hnone : (-(n : Int)).toNat = 0 := by omega
    have hquotient : (m : ℚ) * (2 ^ n)⁻¹ = (m : ℚ) / (powerOfTwo n : Nat) := by
      rw [div_eq_mul_inv, powerOfTwo, Nat.pow_eq]
      push_cast
      rfl
    rw [hnone, neg_neg, Int.toNat_natCast, zpow_neg, zpow_natCast, hquotient,
      Nat.floor_div_natCast, Nat.floor_natCast]
    congr 1
    exact Nat.mul_one m

/-- The whole number in a magnitude is the exact value rounded down, where this is not negative. -/
theorem whole_ofFloat (hfinite : x.isFinite) (hx : 0.0 ≤ x) :
    (Magnitude.ofFloat x).whole = ⌊exact x⌋₊ := by
  have hzero : (0.0 : Float).toModel.unpack = .zero .positive := rfl
  have hle : UnpackedFloat.le (0.0 : Float).toModel.unpack x.toModel.unpack = true :=
    of_decide_eq_true hx
  change x.toModel.unpack.isFinite = true at hfinite
  unfold exact
  cases hm : x.toModel.unpack with
  | infinity s => rw [hm] at hfinite; cases hfinite
  | notANumber => rw [hm] at hfinite; cases hfinite
  | zero s =>
    rw [ofFloat_of_zero hm, Magnitude.whole, Nat.zero_mul, Nat.zero_div]
    exact Nat.floor_zero.symm
  | finite s m e hpos =>
    rw [ofFloat_of_finite hm, whole_eq_floor]
    cases s with
    | positive => rfl
    | negative => rw [hzero, hm] at hle; cases hle

end ReactiveForm.Number
