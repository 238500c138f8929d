import ReactiveForm.Number.Whole
import ReactiveForm.Proofs.Number.Decimal

/-!
# Whole numbers in digits

The decimal text of a whole number is read as that number wherever the limit is not below it.
-/

set_option autoImplicit false

namespace ReactiveForm.Number

variable {limit n : Nat} {beyond : WholeError} {c : Char} {ds : List Char}

theorem le_ofDigitChars (ds : List Char) (value : Nat) : value ≤ Nat.ofDigitChars 10 ds value := by
  induction ds generalizing value with
  | nil => exact Nat.le_refl value
  | cons d ds ih =>
    rw [Nat.ofDigitChars_cons]
    exact Nat.le_trans (by omega) (ih _)

/-- Digits are read to their end if the number does not pass the limit there. -/
theorem continueWhole_eq_ok (hds : AllDigits ds) {value : Nat}
    (hle : Nat.ofDigitChars 10 ds value ≤ limit) :
    continueWhole limit beyond value ds = .ok (Nat.ofDigitChars 10 ds value) := by
  induction ds generalizing value with
  | nil => rfl
  | cons d ds ih =>
    obtain ⟨hd, hds⟩ := List.forall_mem_cons.mp hds
    rw [Nat.ofDigitChars_cons, Nat.mul_comm 10] at hle ⊢
    have hnext := Nat.le_trans (le_ofDigitChars ds _) hle
    rw [continueWhole, hd, Bool.not_true, if_neg Bool.false_ne_true]
    dsimp only
    rw [if_neg (Nat.not_lt.mpr hnext), ih hds hle]

theorem continueWhole_toDigits (h : n ≤ limit) :
    continueWhole limit beyond 0 (Nat.toDigits 10 n) = .ok n := by
  have hvalue : Nat.ofDigitChars 10 (Nat.toDigits 10 n) 0 = n := Nat.ofDigitChars_ten_toDigits
  rw [continueWhole_eq_ok (forall_isDigit_toDigits n) (by omega), hvalue]

theorem readNat_of_digits (hne : ds ≠ []) (hds : AllDigits ds) :
    readNat limit ds = continueWhole limit .tooLarge 0 ds := by
  have hplus : '+' ∉ ds := fun hmem => absurd (hds '+' hmem) (by decide)
  unfold readNat
  split
  · exact absurd rfl hne
  · exact absurd List.mem_cons_self hplus
  · exact absurd List.mem_cons_self hplus
  · rfl

theorem readInt_of_digits (hne : ds ≠ []) (hds : AllDigits ds) :
    readInt limit ds = (continueWhole limit .tooLarge 0 ds).map Int.ofNat := by
  have hplus : '+' ∉ ds := fun hmem => absurd (hds '+' hmem) (by decide)
  have hminus : '-' ∉ ds := fun hmem => absurd (hds '-' hmem) (by decide)
  unfold readInt
  split
  · exact absurd rfl hne
  · exact absurd List.mem_cons_self hplus
  · exact absurd List.mem_cons_self hminus
  · exact absurd List.mem_cons_self hplus
  · exact absurd List.mem_cons_self hminus
  · rfl

theorem readInt_of_minus (hne : ds ≠ []) : readInt limit ('-' :: ds)
    = (continueWhole (limit + 1) .tooSmall 0 ds).map fun n => -Int.ofNat n := by
  obtain ⟨d, ds, rfl⟩ := List.exists_cons_of_ne_nil hne
  rfl

/-! ## Written numbers -/

theorem toList_toString_ofNat (n : Nat) :
    (toString (Int.ofNat n)).toList = Nat.toDigits 10 n := by
  change (Nat.repr n).toList = _
  simp

theorem toList_toString_negSucc (n : Nat) :
    (toString (Int.negSucc n)).toList = '-' :: Nat.toDigits 10 (n + 1) := by
  change ("-" ++ Nat.repr (n + 1)).toList = _
  simp

theorem readNat_toString (h : n ≤ limit) : readNat limit (toString n).toList = .ok n := by
  have htext : (toString n).toList = Nat.toDigits 10 n := by simp
  rw [htext, readNat_of_digits Nat.toDigits_ne_nil (forall_isDigit_toDigits n),
    continueWhole_toDigits h]

theorem readInt_toString {i : Int} (hlow : -(limit + 1 : Int) ≤ i) (hhigh : i ≤ limit) :
    readInt limit (toString i).toList = .ok i := by
  cases i with
  | ofNat n =>
    have hn : n ≤ limit := by
      rw [Int.ofNat_eq_natCast] at hhigh
      omega
    rw [toList_toString_ofNat, readInt_of_digits Nat.toDigits_ne_nil (forall_isDigit_toDigits n),
      continueWhole_toDigits hn]
    rfl
  | negSucc n =>
    have hn : n + 1 ≤ limit + 1 := by omega
    rw [toList_toString_negSucc, readInt_of_minus Nat.toDigits_ne_nil, continueWhole_toDigits hn]
    rfl

/-- The text of a whole number consists of digits and a minus sign. -/
theorem forall_mem_toString (i : Int) :
    ∀ c ∈ (toString i).toList, c.isDigit = true ∨ c = '-' := by
  have hdigits (n : Nat) : ∀ c ∈ Nat.toDigits 10 n, c.isDigit = true ∨ c = '-' :=
    fun c hc => .inl (forall_isDigit_toDigits n c hc)
  cases i with
  | ofNat n =>
    rw [toList_toString_ofNat]
    exact hdigits n
  | negSucc n =>
    rw [toList_toString_negSucc]
    exact List.forall_mem_cons.mpr ⟨.inr rfl, hdigits (n + 1)⟩

theorem not_mem_toString (hc : c.isDigit = false) (hminus : c ≠ '-') (i : Int) :
    c ∉ (toString i).toList := by
  intro hmem
  rcases forall_mem_toString i c hmem with h | h
  · exact nomatch hc.symm.trans h
  · exact hminus h

theorem toString_ne_nil (i : Int) : (toString i).toList ≠ [] := by
  cases i with
  | ofNat n =>
    rw [toList_toString_ofNat]
    exact Nat.toDigits_ne_nil
  | negSucc n =>
    rw [toList_toString_negSucc]
    exact List.cons_ne_nil _ _

end ReactiveForm.Number
