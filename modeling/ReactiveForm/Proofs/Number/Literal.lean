import Mathlib
import ReactiveForm.Number.Text

/-!
# The numbers that literals stand for

A literal has no sign, and neither has the number it stands for: it is never negative and never
NaN. So the only literal without decimal digits in its text is a positive infinity.
-/

set_option autoImplicit false

namespace ReactiveForm.Number

open Float.Model Float.Model.UnpackedFloat

/-- A number, finite or infinite, with a positive sign. -/
def IsUnsigned : UnpackedFloat → Prop
  | .infinity s => s = .positive
  | .notANumber => False
  | .zero s => s = .positive
  | .finite s _ _ _ => s = .positive

theorem isUnsigned_round (format : Format) (m : Nat) (e : Int) (accuracy : Accuracy) :
    IsUnsigned (roundWithAccuracy format .positive m e accuracy) := by
  unfold roundWithAccuracy
  dsimp only
  split <;> rfl

theorem isUnsigned_ofNat (format : Format) (n : Nat) :
    IsUnsigned (UnpackedFloat.ofNat format n) := by
  unfold UnpackedFloat.ofNat UnpackedFloat.ofInt UnpackedFloat.normalize
  split
  · next h => exact absurd h (by rw [Int.compare_eq_lt]; omega)
  · rfl
  · exact isUnsigned_round ..

/-- A quotient has no sign when its divisor is finite and not zero. -/
theorem isUnsigned_div (format : Format) {x : UnpackedFloat} (hx : IsUnsigned x) (m : Nat) (e : Int)
    (hm : 0 < m) : IsUnsigned (UnpackedFloat.div format x (.finite .positive m e hm)) := by
  cases x with
  | infinity s => obtain rfl : s = .positive := hx; rfl
  | notANumber => cases hx
  | zero s => obtain rfl : s = .positive := hx; rfl
  | finite s n k hn =>
    obtain rfl : s = .positive := hx
    exact isUnsigned_round ..

theorem isUnsigned_mul (format : Format) (m n : Nat) (e f : Int) (hm : 0 < m) (hn : 0 < n) :
    IsUnsigned (UnpackedFloat.mul format (.finite .positive m e hm) (.finite .positive n f hn)) := by
  unfold UnpackedFloat.mul
  exact isUnsigned_round ..

theorem isUnsigned_ofScientific (format : Format) (m : Nat) (e : Int) :
    IsUnsigned (UnpackedFloat.ofScientific format m e) := by
  unfold UnpackedFloat.ofScientific
  split
  · rfl
  · split
    · rfl
    · split
      · rfl
      · split
        · exact isUnsigned_mul ..
        · exact isUnsigned_div format (x := .finite .positive ..) rfl ..

/-! ## Packing -/

/-- A pattern of bits with a positive sign that is not that of a NaN. -/
theorem isUnsigned_unpack {format : Format} {b : BitVec format.numBits}
    (hsign : unpackSign b = Sign.positive.toBitVec)
    (hnan : unpackExponent b = -1#_ → unpackMantissa b = 0#_) :
    IsUnsigned (unpack format b) := by
  unfold UnpackedFloat.unpack
  rw [hsign]
  dsimp only
  split
  · next h => rw [if_pos (hnan h)]; rfl
  · split
    · split <;> rfl
    · rfl

theorem isUnsigned_unpack_packComponents {format : Format} {e : BitVec format.exponentBits}
    {m : BitVec format.mantissaBitsWithoutImplicit} (hnan : e = -1#_ → m = 0#_) :
    IsUnsigned (unpack format (packComponents format .positive e m)) :=
  isUnsigned_unpack (unpackSign_packComponents ..) (by simpa using hnan)

/-- Only a NaN is packed to a NaN, and packing keeps a positive sign. -/
theorem exists_pack_eq (format : Format) {x : UnpackedFloat} (hx : x.isNaN = false) :
    ∃ s e m, pack format x = packComponents format s e m ∧ (e = -1#_ → m = 0#_) ∧
      (IsUnsigned x → s = .positive) := by
  cases x with
  | infinity s => exact ⟨s, _, _, rfl, fun _ => rfl, id⟩
  | notANumber => cases hx
  | zero s => exact ⟨s, _, _, rfl, fun _ => rfl, id⟩
  | finite s m e hm =>
    have he := Nat.pow_le_pow_right (by decide : 0 < 2) format.he
    unfold UnpackedFloat.pack
    dsimp only
    split
    · exact ⟨s, _, _, rfl, fun _ => rfl, id⟩
    · next hsmall =>
      -- the exponent field of a finite number is not full
      split
      · refine ⟨s, _, _, rfl, fun hfull => ?_, id⟩
        have hfull := congrArg BitVec.toNat hfull
        simp only [BitVec.neg_one_eq_allOnes, BitVec.toNat_allOnes, BitVec.toNat_ofNat] at hfull
        rw [Nat.mod_eq_of_lt (by omega)] at hfull
        omega
      · refine ⟨s, _, _, rfl, fun hfull => ?_, id⟩
        have hfull := congrArg BitVec.toNat hfull
        simp only [BitVec.neg_one_eq_allOnes, BitVec.toNat_allOnes, BitVec.toNat_ofNat,
          Nat.zero_mod] at hfull
        omega

theorem isNaN_of_isUnsigned {x : UnpackedFloat} (hx : IsUnsigned x) : x.isNaN = false := by
  cases x with
  | notANumber => cases hx
  | _ => rfl

theorem isUnsigned_unpack_pack (format : Format) {x : UnpackedFloat} (hx : IsUnsigned x) :
    IsUnsigned (unpack format (pack format x)) := by
  obtain ⟨s, e, m, hpack, hnan, hsign⟩ := exists_pack_eq format (isNaN_of_isUnsigned hx)
  rw [hpack, hsign hx]
  exact isUnsigned_unpack_packComponents hnan

theorem isNaN_unpack_pack (format : Format) {x : UnpackedFloat} (hx : x.isNaN = false) :
    (unpack format (pack format x)).isNaN = false := by
  obtain ⟨s, e, m, hpack, hnan, -⟩ := exists_pack_eq format hx
  rw [hpack]
  unfold UnpackedFloat.unpack
  simp only [unpackExponent_packComponents, unpackMantissa_packComponents]
  split
  · next h => rw [if_pos (hnan h)]; rfl
  · split
    · split <;> rfl
    · rfl

theorem isUnsigned_pack {x : UnpackedFloat} (hx : IsUnsigned x) :
    IsUnsigned (Float.Model.pack x).unpack :=
  isUnsigned_unpack_pack .binary64 hx

/-! ## Literals -/

/-- Each precomputed power of ten is finite, positive and not zero. -/
theorem powersOfTen_finite :
    ∀ x ∈ Float.exactlyRepresentablePowersOfTen,
      ∃ m e hm, x.toModel.unpack = .finite .positive m e hm := by
  have hall : ∀ x ∈ Float.exactlyRepresentablePowersOfTen.toList,
      (match x.toModel.unpack with | .finite .positive _ _ _ => true | _ => false) = true := by
    decide +kernel
  intro x hx
  have hx := hall x (by simpa using hx)
  split at hx
  · next m e hm h => exact ⟨m, e, hm, h⟩
  · cases hx

theorem isUnsigned_ofDigits (whole fraction : List Char) :
    IsUnsigned (ofDigits whole fraction).toModel.unpack := by
  unfold ofDigits Float.ofScientific
  split
  · next h =>
    have hsize : fraction.length < Float.exactlyRepresentablePowersOfTen.size := by
      simp [Float.exactlyRepresentablePowersOfTen]
      omega
    obtain ⟨m, e, hm, hpower⟩ := powersOfTen_finite _ (Array.getElem_mem hsize)
    change IsUnsigned (Float.Model.pack (UnpackedFloat.div .binary64 _ _)).unpack
    rw [hpower]
    exact isUnsigned_pack (isUnsigned_div _ (isUnsigned_pack (isUnsigned_ofNat _ _)) m e hm)
  · exact isUnsigned_pack (isUnsigned_ofScientific _ _ _)

theorem isNaN_ofDigits (whole fraction : List Char) : (ofDigits whole fraction).isNaN = false :=
  isNaN_of_isUnsigned (isUnsigned_ofDigits whole fraction)

theorem isNaN_neg {x : Float} (hx : x.isNaN = false) : (-x).isNaN = false := by
  refine isNaN_unpack_pack .binary64 (x := x.toModel.unpack.neg) ?_
  have hx : x.toModel.unpack.isNaN = false := hx
  cases h : x.toModel.unpack with
  | notANumber => rw [h] at hx; cases hx
  | _ => rfl

theorem isFinite_ofDigits {whole fraction : List Char}
    (h : (ofDigits whole fraction).isInf = false) : (ofDigits whole fraction).isFinite = true := by
  have hu := isUnsigned_ofDigits whole fraction
  unfold Float.isInf Float.Model.isInf at h
  unfold Float.isFinite Float.Model.isFinite
  cases hx : (ofDigits whole fraction).toModel.unpack with
  | infinity s => rw [hx] at h; cases h
  | notANumber => rw [hx] at hu; cases hu
  | zero s => rfl
  | finite s m e hm => rfl

/-- A literal that is too large is a positive infinity. -/
theorem text_of_isInf {whole fraction : List Char} (h : (ofDigits whole fraction).isInf = true) :
    text (ofDigits whole fraction) = "Infinity" := by
  have hpositive : (0.0 : Float) < ofDigits whole fraction := by
    have hu := isUnsigned_ofDigits whole fraction
    unfold Float.isInf Float.Model.isInf at h
    cases hx : (ofDigits whole fraction).toModel.unpack with
    | infinity s =>
      obtain rfl : s = .positive := by rw [hx] at hu; exact hu
      refine decide_eq_true ?_
      change UnpackedFloat.lt (0.0 : Float).toModel.unpack _ = true
      rw [hx]
      decide +kernel
    | _ => rw [hx] at h; cases h
  rw [text, isNaN_ofDigits, h]
  simp [hpositive]

end ReactiveForm.Number
