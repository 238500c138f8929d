import Mathlib
import ReactiveForm.Number.Text

/-!
# Whole numbers as floating-point numbers

Whole numbers of at most 53 bits have floating-point numbers of their own. A literal without a
fraction stands for the one that counting up to it leads to, so two of these are equal exactly when
the whole numbers are.
-/

set_option autoImplicit false

namespace ReactiveForm.Number

open Float.Model Float.Model.UnpackedFloat

/-- A mantissa that fills all its bits. -/
structure Full (m : Nat) : Prop where
  lower : 2 ^ 52 ≤ m
  upper : m < 2 ^ 53

namespace Full

variable {m : Nat} (h : Full m)

include h

theorem pos : 0 < m := Nat.lt_of_lt_of_le (by decide) h.lower

theorem log2_mul (k : Nat) : (m * 2 ^ k).log2 = 52 + k := by
  have hne : m * 2 ^ k ≠ 0 := Nat.mul_ne_zero h.pos.ne' (Nat.two_pow_pos k).ne'
  rw [Nat.log2_eq_iff hne, Nat.pow_add, Nat.add_right_comm, Nat.pow_add 2 (52 + 1)]
  exact ⟨Nat.mul_le_mul_right _ h.lower, Nat.mul_lt_mul_of_pos_right h.upper (Nat.two_pow_pos k)⟩

theorem log2_eq : m.log2 = 52 := by
  have hlog := h.log2_mul 0
  rwa [Nat.pow_zero, Nat.mul_one] at hlog

/-- The first bit, which is not stored, is put back. -/
theorem toNat_stored : (1#1 ++ BitVec.ofNat 52 m).toNat = m := by
  have hone : m / 2 ^ 52 = 1 :=
    Nat.div_eq_of_lt_le (by simpa using h.lower) (by have := h.upper; omega)
  have hsplit := Nat.mod_add_div m (2 ^ 52)
  rw [hone, Nat.mul_one] at hsplit
  rw [BitVec.toNat_append, ← Nat.shiftLeft_add_eq_or_of_lt (BitVec.isLt _), BitVec.toNat_ofNat,
    Nat.add_comm]
  simpa [Nat.shiftLeft_eq] using hsplit

end Full

/-! ## Rounding -/

theorem shiftRight_exact (m k : Nat) :
    ExtendedMantissa.ofMantissaAndAccuracy (m * 2 ^ k) .exact >>> k = ⟨m, false, false⟩ := by
  change k.repeat ExtendedMantissa.shiftRightOne ⟨m * 2 ^ k, false, false⟩ = _
  induction k generalizing m with
  | zero => simp [Nat.repeat]
  | succ k ih =>
    have hdouble : m * 2 ^ (k + 1) = 2 * m * 2 ^ k := by rw [Nat.pow_succ]; ring
    rw [Nat.repeat, hdouble, ih]
    simp [ExtendedMantissa.shiftRightOne]

theorem shift_full {m : Nat} (h : Full m) {e : Int} (he : -1074 ≤ e) (k : Nat) :
    shiftToTargetExponent .binary64 (m * 2 ^ k) (e - k) .exact = (⟨m, false, false⟩, e) := by
  have htarget : Format.targetExponent .binary64 (totalExponent (m * 2 ^ k) (e - k)) = e := by
    simp only [Format.targetExponent, totalExponent, h.log2_mul, Format.mantissaBits,
      Format.minExponent]
    omega
  have hamount : (e - (e - k)).toNat = k := by omega
  simp only [shiftToTargetExponent, shiftToExponent, htarget, hamount, shiftRight_exact]
  simp

/-- Bits behind a full mantissa that are all zero are dropped, and nothing else happens. -/
theorem round_full {m : Nat} (h : Full m) {e : Int} (he : -1074 ≤ e) (k : Nat) :
    roundWithAccuracy .binary64 .positive (m * 2 ^ k) (e - k) .exact
      = .finite .positive m e h.pos := by
  have hagain := shift_full h he 0
  simp only [Nat.pow_zero, Nat.mul_one, Int.natCast_zero, Int.sub_zero] at hagain
  have hrounded : ExtendedMantissa.roundedMantissa ⟨m, false, false⟩ = m := rfl
  unfold roundWithAccuracy
  simp only [shift_full h he k, hrounded, hagain]
  exact dif_neg h.pos.ne'

/-- A full mantissa with an exponent in range comes back as it is. -/
theorem unpack_pack_full {m : Nat} (h : Full m) {e : Int} (hlow : -1074 ≤ e) (hhigh : e ≤ 971) :
    (Float.Model.pack (.finite .positive m e h.pos)).unpack = .finite .positive m e h.pos := by
  obtain ⟨b, hb⟩ : ∃ b : Nat, e + (1023 + 52) = b := Int.eq_ofNat_of_zero_le (by omega)
  have hfield : (e + Format.exponentBias .binary64 + (52 : Nat)).toNat = b := by
    simp only [Format.exponentBias]
    omega
  have hbits : m.log2 + 1 = Format.mantissaBits .binary64 := congrArg (· + 1) h.log2_eq
  have hexponent : (BitVec.ofNat 11 b).toNat = b := by
    rw [BitVec.toNat_ofNat, Nat.mod_eq_of_lt (by omega)]
  -- the largest and the smallest exponent mark other numbers
  have hexponent_ne (k : BitVec 11) (hk : b ≠ k.toNat) : BitVec.ofNat 11 b ≠ k := by
    rintro rfl
    exact hk hexponent.symm
  have hfull : BitVec.ofNat 11 b ≠ -1#11 := hexponent_ne _ (by simp; omega)
  have hempty : BitVec.ofNat 11 b ≠ 0#11 := hexponent_ne _ (by simp; omega)
  change UnpackedFloat.unpack .binary64 (UnpackedFloat.pack .binary64 _) = _
  unfold UnpackedFloat.pack
  dsimp only
  rw [hfield, if_neg (by omega), if_pos hbits]
  unfold UnpackedFloat.unpack
  simp only [unpackMantissa_packComponents, unpackExponent_packComponents,
    unpackSign_packComponents, Sign.ofBitVec_toBitVec, hfull, hempty, if_false, hexponent,
    h.toNat_stored]
  congr 1
  simp only [Format.exponentBias]
  omega

/-! ## Whole numbers -/

/-- The number of zeros that fill up the mantissa of a whole number. -/
def fill (n : Nat) : Nat := 52 - n.log2

variable {n : Nat}

theorem full_fill (hn : 0 < n) (hbits : n < 2 ^ 53) : Full (n * 2 ^ fill n) := by
  have hlog : n.log2 < 53 := (Nat.log2_lt hn.ne').mpr hbits
  have hlower : 2 ^ n.log2 ≤ n := Nat.log2_self_le hn.ne'
  have hupper : n < 2 ^ (n.log2 + 1) := Nat.lt_log2_self
  have hsum : n.log2 + fill n = 52 := by
    unfold fill
    omega
  constructor
  · rw [← hsum, Nat.pow_add]
    exact Nat.mul_le_mul_right _ hlower
  · have hsum : n.log2 + 1 + fill n = 53 := by omega
    rw [← hsum, Nat.pow_add]
    exact Nat.mul_lt_mul_of_pos_right hupper (Nat.two_pow_pos _)

/-- The floating-point number that is equal to a whole number. -/
def wholeFloat (n : Nat) (hn : 0 < n) : UnpackedFloat :=
  .finite .positive (n * 2 ^ fill n) (-fill n) (Nat.mul_pos hn (Nat.two_pow_pos _))

theorem ofNat_eq_wholeFloat (hn : 0 < n) (hbits : n < 2 ^ 53) :
    UnpackedFloat.ofNat .binary64 n = wholeFloat n hn := by
  have hlog : n.log2 < 53 := (Nat.log2_lt hn.ne').mpr hbits
  have hpositive : compare (n : Int) 0 = .gt := Int.compare_eq_gt.mpr (by omega)
  have htarget : Format.targetExponent .binary64 (totalExponent n 0) = -fill n := by
    simp only [Format.targetExponent, totalExponent, Format.mantissaBits, Format.minExponent, fill]
    omega
  have hamount : ((0 : Int) - -fill n).toNat = fill n := by omega
  have hround := round_full (full_fill hn hbits) (e := -fill n) (by unfold fill; omega) 0
  simp only [Nat.pow_zero, Nat.mul_one, Int.natCast_zero, Int.sub_zero] at hround
  simp only [UnpackedFloat.ofNat, UnpackedFloat.ofInt, UnpackedFloat.normalize, hpositive,
    UnpackedFloat.round, Int.toNat_natCast, htarget, decreaseExponent, hamount, Nat.shiftLeft_eq]
  have hexponent : (0 : Int) - fill n = -fill n := by omega
  rw [hexponent]
  exact hround

theorem unpack_pack_wholeFloat (hn : 0 < n) (hbits : n < 2 ^ 53) :
    (Float.Model.pack (wholeFloat n hn)).unpack = wholeFloat n hn :=
  unpack_pack_full (full_fill hn hbits) (by unfold fill; omega) (by unfold fill; omega)

theorem unpack_toFloat (hn : 0 < n) (hbits : n < 2 ^ 53) :
    n.toUInt64.toFloat.toModel.unpack = wholeFloat n hn := by
  have hnat : n.toUInt64.toNat = n := by
    rw [Nat.toUInt64, UInt64.toNat_ofNat', Nat.mod_eq_of_lt (by omega)]
  change (Float.Model.pack (UnpackedFloat.ofNat .binary64 n.toUInt64.toNat)).unpack = _
  rw [hnat, ofNat_eq_wholeFloat hn hbits, unpack_pack_wholeFloat hn hbits]

theorem unpack_one : (Float.exactlyRepresentablePowersOfTen[0]).toModel.unpack
    = .finite .positive (2 ^ 52) (-52) (by decide) := by
  rfl

theorem mul_one_wholeFloat (hn : 0 < n) (hbits : n < 2 ^ 53) :
    UnpackedFloat.mul .binary64 (wholeFloat n hn) (.finite .positive (2 ^ 52) (-52) (by decide))
      = wholeFloat n hn := by
  have hround := round_full (full_fill hn hbits) (e := -fill n) (by unfold fill; omega) 52
  exact hround

theorem div_one_wholeFloat (hn : 0 < n) (hbits : n < 2 ^ 53) :
    UnpackedFloat.div .binary64 (wholeFloat n hn) (.finite .positive (2 ^ 52) (-52) (by decide))
      = wholeFloat n hn := by
  have hfull := full_fill hn hbits
  have hround := round_full hfull (e := -fill n) (by unfold fill; omega) 1
  have hlog := hfull.log2_eq
  -- one bit more than the mantissa holds is computed of the quotient, and it is zero
  have htarget : min (-(fill n : Int) - -52) (Format.targetExponent .binary64
      (totalExponent (n * 2 ^ fill n) (-fill n) - totalExponent (2 ^ 52) (-52)))
        = -(fill n : Int) - (1 : Nat) := by
    have hfill : fill n ≤ 52 := by
      unfold fill
      omega
    simp only [Format.targetExponent, totalExponent, hlog, Nat.log2_two_pow, Format.mantissaBits,
      Format.minExponent]
    omega
  have hamount : (-(fill n : Int) - -52 - (-(fill n : Int) - (1 : Nat))).toNat = 53 := by omega
  have hquotient : n * 2 ^ fill n * 2 ^ 53 = n * 2 ^ fill n * 2 ^ 1 * 2 ^ 52 := by ring
  have hdiv : divCore .binary64 (n * 2 ^ fill n) (-fill n) (2 ^ 52) (-52)
      = (n * 2 ^ fill n * 2 ^ 1, -(fill n : Int) - (1 : Nat), .exact) := by
    simp only [divCore, htarget, hamount, Nat.shiftLeft_eq, hquotient]
    rw [Nat.mul_div_cancel _ (Nat.two_pow_pos 52), Nat.mul_mod_left]
    rfl
  simp only [wholeFloat, UnpackedFloat.div, hdiv]
  exact hround

/-! ## Literals and positions -/

theorem unpack_ofDigits {whole : List Char} (hpos : 0 < digitsValue whole)
    (hbits : digitsValue whole < 2 ^ 53) :
    (ofDigits whole []).toModel.unpack = wholeFloat (digitsValue whole) hpos := by
  have hwhole : digitsValue (whole ++ []) = digitsValue whole := by rw [List.append_nil]
  unfold ofDigits Float.ofScientific
  rw [hwhole, dif_pos ⟨hbits, by simp⟩]
  change (Float.Model.pack (UnpackedFloat.div .binary64 _
    (Float.exactlyRepresentablePowersOfTen[0]).toModel.unpack)).unpack = _
  rw [unpack_toFloat hpos hbits, unpack_one, div_one_wholeFloat hpos hbits,
    unpack_pack_wholeFloat hpos hbits]

theorem unpack_ofNat (hn : 0 < n) (hbits : n < 2 ^ 53) :
    (Float.ofNat n).toModel.unpack = wholeFloat n hn := by
  unfold Float.ofNat
  change (Float.ofScientific n false 0).toModel.unpack = _
  unfold Float.ofScientific
  rw [dif_pos ⟨hbits, by simp⟩]
  change (Float.Model.pack (UnpackedFloat.mul .binary64 _
    (Float.exactlyRepresentablePowersOfTen[0]).toModel.unpack)).unpack = _
  rw [unpack_toFloat hn hbits, unpack_one, mul_one_wholeFloat hn hbits,
    unpack_pack_wholeFloat hn hbits]

theorem fill_inj {m : Nat} (h : m * 2 ^ fill m = n * 2 ^ fill n) (hfill : fill m = fill n) :
    m = n := by
  rw [hfill] at h
  exact Nat.eq_of_mul_eq_mul_right (Nat.two_pow_pos _) h

/-- A literal equals a position exactly when it has the position for its value. -/
theorem ofDigits_beq_ofNat {whole : List Char} (hpos : 0 < digitsValue whole)
    (hbits : digitsValue whole < 2 ^ 53) (hn : 0 < n) (hn' : n < 2 ^ 53) :
    (ofDigits whole [] == Float.ofNat n) = decide (digitsValue whole = n) := by
  change (UnpackedFloat.beq _ _) = _
  rw [unpack_ofDigits hpos hbits, unpack_ofNat hn hn']
  generalize digitsValue whole = m at hpos
  rw [Bool.eq_iff_iff, decide_eq_true_eq]
  simp only [UnpackedFloat.beq, wholeFloat, UnpackedFloat.compare, beq_iff_eq, Option.some.injEq,
    Ordering.then_eq_eq, compare_eq_iff_eq, neg_inj, Nat.cast_inj]
  constructor
  · rintro ⟨hfill, hmantissa⟩
    exact fill_inj hmantissa hfill
  · rintro rfl
    exact ⟨rfl, rfl⟩

end ReactiveForm.Number
