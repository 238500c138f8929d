import ReactiveForm.Proofs.Number.Literal

/-!
# The texts of numbers

The grammar of plain decimals, told apart from the reader. A text is read as a number exactly when
it is a plain decimal with nothing but padding around it, and as NaN otherwise.
-/

set_option autoImplicit false

namespace ReactiveForm.Number

def AllDigits (cs : List Char) : Prop := ∀ c ∈ cs, c.isDigit = true

/-- Digits, which a point and more digits may follow, or a point and digits. -/
inductive IsPlain : List Char → Prop
  | whole {ds : List Char} : ds ≠ [] → AllDigits ds → IsPlain ds
  | mixed {ds fs : List Char} : ds ≠ [] → AllDigits ds → AllDigits fs → IsPlain (ds ++ '.' :: fs)
  | fraction {fs : List Char} : fs ≠ [] → AllDigits fs → IsPlain ('.' :: fs)

/-- A plain decimal that may have a minus sign in front. -/
inductive IsDecimal : List Char → Prop
  | unsigned {cs : List Char} : IsPlain cs → IsDecimal cs
  | negative {cs : List Char} : IsPlain cs → IsDecimal ('-' :: cs)

/-- The text consists of a core and of padding around it. -/
def Pads (core text : List Char) : Prop :=
  ∃ before after, text = before ++ core ++ after ∧
    (∀ c ∈ before, isPadding c = true) ∧ ∀ c ∈ after, isPadding c = true

variable {cs ds fs text core : List Char} {x : Float}

/-! ## Plain decimals -/

theorem unsigned?_of_digits (hne : ds ≠ []) (hds : AllDigits ds) :
    unsigned? ds = some (ofDigits ds []) := by
  have htake : ds.takeWhile Char.isDigit = ds := List.takeWhile_eq_self_iff.mpr hds
  have hdrop : ds.dropWhile Char.isDigit = [] := List.dropWhile_eq_nil_iff.mpr hds
  simp [unsigned?, htake, hdrop, hne]

theorem unsigned?_of_point (hds : AllDigits ds) (hfs : AllDigits fs) (hne : ds ≠ [] ∨ fs ≠ []) :
    unsigned? (ds ++ '.' :: fs) = some (ofDigits ds fs) := by
  have hpoint : Char.isDigit '.' = false := by decide
  have htake : (ds ++ '.' :: fs).takeWhile Char.isDigit = ds := by
    rw [List.takeWhile_append_of_pos hds, List.takeWhile_cons_of_neg (by simp [hpoint]),
      List.append_nil]
  have hdrop : (ds ++ '.' :: fs).dropWhile Char.isDigit = '.' :: fs := by
    rw [List.dropWhile_append_of_pos hds, List.dropWhile_cons_of_neg (by simp [hpoint])]
  have hfs : fs.all Char.isDigit = true := List.all_eq_true.mpr hfs
  have hne : (ds.isEmpty && fs.isEmpty) = false := by
    simpa [List.isEmpty_iff, imp_iff_not_or] using hne
  simp only [unsigned?, htake, hdrop, hfs, hne, Bool.not_false, Bool.and_self, if_true]

theorem isPlain_of_unsigned? (h : unsigned? cs = some x) : IsPlain cs := by
  have hsplit : cs.takeWhile Char.isDigit ++ cs.dropWhile Char.isDigit = cs :=
    List.takeWhile_append_dropWhile
  have hwhole : AllDigits (cs.takeWhile Char.isDigit) := List.all_eq_true.mp List.all_takeWhile
  unfold unsigned? at h
  dsimp only at h
  split at h
  next hrest =>
    split at h
    next => cases h
    next hne =>
      rw [hrest, List.append_nil] at hsplit
      rw [hsplit] at hne hwhole
      exact .whole (by simpa using hne) hwhole
  next fs hrest =>
    split at h
    next hvalid =>
      simp only [Bool.and_eq_true, Bool.not_eq_true', Bool.and_eq_false_iff] at hvalid
      obtain ⟨hfs, hne⟩ := hvalid
      have hfs : AllDigits fs := List.all_eq_true.mp hfs
      rw [hrest] at hsplit
      rw [← hsplit]
      rcases hwhole_nil : cs.takeWhile Char.isDigit with _ | ⟨d, ds⟩
      · rw [hwhole_nil] at hne
        exact .fraction (by simpa using hne) hfs
      · rw [hwhole_nil] at hwhole
        exact .mixed (List.cons_ne_nil d ds) hwhole hfs
    next => cases h
  next => cases h

/-- The plain decimals are read, and nothing else is. -/
theorem exists_unsigned?_iff : (∃ x, unsigned? cs = some x) ↔ IsPlain cs := by
  constructor
  · rintro ⟨x, hx⟩
    exact isPlain_of_unsigned? hx
  · intro h
    cases h with
    | whole hne hds => exact ⟨_, unsigned?_of_digits hne hds⟩
    | mixed hne hds hfs => exact ⟨_, unsigned?_of_point hds hfs (.inl hne)⟩
    | fraction hne hfs =>
      have hnone : AllDigits [] := List.forall_mem_nil _
      have hread := unsigned?_of_point hnone hfs (.inr hne)
      exact ⟨_, hread⟩

/-! ## Whole numbers -/

theorem digitsValue_toDigits (n : Nat) : digitsValue (Nat.toDigits 10 n) = n :=
  Nat.ofDigitChars_ten_toDigits

theorem forall_isDigit_toDigits (n : Nat) : AllDigits (Nat.toDigits 10 n) :=
  fun _ hc => Nat.isDigit_of_mem_toDigits (by decide) (by decide) hc

theorem unsigned?_toDigits (n : Nat) :
    unsigned? (Nat.toDigits 10 n) = some (ofDigits (Nat.toDigits 10 n) []) :=
  unsigned?_of_digits Nat.toDigits_ne_nil (forall_isDigit_toDigits n)

/-! ## Signs -/

/-- A plain decimal has no sign. -/
theorem IsPlain.head_ne (h : IsPlain cs) : cs.head? ≠ some '-' := by
  have hdigit {ds : List Char} (hds : AllDigits ds) : '-' ∉ ds :=
    fun hmem => absurd (hds '-' hmem) (by decide)
  intro hhead
  cases h with
  | whole hne hds => exact hdigit hds (List.mem_of_head? hhead)
  | mixed hne hds hfs =>
    rw [List.head?_append_of_ne_nil _ hne] at hhead
    exact hdigit hds (List.mem_of_head? hhead)
  | fraction hne hfs => cases hhead

theorem signed?_of_head_ne (h : cs.head? ≠ some '-') : signed? cs = unsigned? cs := by
  unfold signed?
  split
  · exact absurd rfl h
  · rfl

theorem exists_signed?_iff : (∃ x, signed? cs = some x) ↔ IsDecimal cs := by
  constructor
  · rintro ⟨x, hx⟩
    unfold signed? at hx
    split at hx
    · obtain ⟨y, hy, -⟩ := Option.map_eq_some_iff.mp hx
      exact .negative (isPlain_of_unsigned? hy)
    · exact .unsigned (isPlain_of_unsigned? hx)
  · intro h
    cases h with
    | unsigned h =>
      obtain ⟨x, hx⟩ := exists_unsigned?_iff.mpr h
      exact ⟨x, (signed?_of_head_ne h.head_ne).trans hx⟩
    | negative h =>
      obtain ⟨x, hx⟩ := exists_unsigned?_iff.mpr h
      exact ⟨-x, congrArg (Option.map (- ·)) hx⟩

theorem isNaN_of_unsigned? (h : unsigned? cs = some x) : x.isNaN = false := by
  unfold unsigned? at h
  dsimp only at h
  split at h
  · split at h <;> cases h
    exact isNaN_ofDigits _ _
  · split at h <;> cases h
    exact isNaN_ofDigits _ _
  · cases h

theorem isNaN_of_signed? (h : signed? cs = some x) : x.isNaN = false := by
  unfold signed? at h
  split at h
  · obtain ⟨y, hy, rfl⟩ := Option.map_eq_some_iff.mp h
    exact isNaN_neg (isNaN_of_unsigned? hy)
  · exact isNaN_of_unsigned? h

/-! ## Padding -/

theorem isPadding_of_isDigit {c : Char} (hc : c.isDigit = true) : isPadding c = false := by
  cases hpadding : isPadding c with
  | false => rfl
  | true =>
    simp only [isPadding, Bool.or_eq_true, decide_eq_true_eq] at hpadding
    rcases hpadding with ((rfl | rfl) | rfl) | rfl <;> exact absurd hc (by decide)

theorem IsPlain.isPadding (h : IsPlain cs) : ∀ c ∈ cs, isPadding c = false := by
  have hdigits {ds : List Char} (hds : AllDigits ds) : ∀ c ∈ ds, Number.isPadding c = false :=
    fun c hc => isPadding_of_isDigit (hds c hc)
  have hpoint {fs : List Char} (hfs : AllDigits fs) : ∀ c ∈ '.' :: fs, Number.isPadding c = false :=
    List.forall_mem_cons.mpr ⟨by decide, hdigits hfs⟩
  cases h with
  | whole _ hds => exact hdigits hds
  | mixed _ hds hfs => exact List.forall_mem_append.mpr ⟨hdigits hds, hpoint hfs⟩
  | fraction _ hfs => exact hpoint hfs

theorem IsPlain.ne_nil (h : IsPlain cs) : cs ≠ [] := by
  cases h with
  | whole hne _ => exact hne
  | mixed _ _ _ => simp
  | fraction _ _ => simp

theorem IsDecimal.isPadding (h : IsDecimal cs) : ∀ c ∈ cs, isPadding c = false := by
  cases h with
  | unsigned h => exact h.isPadding
  | negative h => exact List.forall_mem_cons.mpr ⟨by decide, h.isPadding⟩

theorem IsDecimal.ne_nil (h : IsDecimal cs) : cs ≠ [] := by
  cases h with
  | unsigned h => exact h.ne_nil
  | negative h => simp

theorem dropWhile_isPadding (hds : ∀ c ∈ ds, isPadding c = true) (hne : cs ≠ [])
    (hcs : ∀ c ∈ cs, isPadding c = false) (rest : List Char) :
    (ds ++ (cs ++ rest)).dropWhile isPadding = cs ++ rest := by
  obtain ⟨c, cs, rfl⟩ := List.exists_cons_of_ne_nil hne
  have hc : isPadding c = false := hcs c List.mem_cons_self
  rw [List.dropWhile_append_of_pos hds, List.cons_append,
    List.dropWhile_cons_of_neg (by simp [hc])]

/-- Padding is cut off both ends of a core that has none in it. -/
theorem trimPadding_of_pads (h : Pads core text) (hne : core ≠ [])
    (hcore : ∀ c ∈ core, isPadding c = false) : trimPadding text = core := by
  obtain ⟨before, after, rfl, hbefore, hafter⟩ := h
  have hstart := dropWhile_isPadding hbefore hne hcore after
  have hafter : ∀ c ∈ after.reverse, isPadding c = true := fun c hc =>
    hafter c (List.mem_reverse.mp hc)
  have hcore : ∀ c ∈ core.reverse, isPadding c = false := fun c hc =>
    hcore c (List.mem_reverse.mp hc)
  have hend := dropWhile_isPadding hafter (List.reverse_ne_nil_iff.mpr hne) hcore []
  rw [List.append_nil] at hend
  rw [trimPadding, List.append_assoc, hstart, List.reverse_append, hend, List.reverse_reverse]

/-- What is cut off a text is padding. -/
theorem pads_trimPadding (text : List Char) : Pads (trimPadding text) text := by
  let rest := text.dropWhile isPadding
  have hrest : rest = trimPadding text ++ (rest.reverse.takeWhile isPadding).reverse := by
    rw [trimPadding, ← List.reverse_append, List.takeWhile_append_dropWhile, List.reverse_reverse]
  refine ⟨text.takeWhile isPadding, (rest.reverse.takeWhile isPadding).reverse, ?_, ?_, ?_⟩
  · rw [List.append_assoc, ← hrest, List.takeWhile_append_dropWhile]
  · exact List.all_eq_true.mp List.all_takeWhile
  · intro c hc
    exact List.all_eq_true.mp List.all_takeWhile c (List.mem_reverse.mp hc)

/-! ## Texts -/

theorem read_eq_of_pads {s : String} (h : Pads core s.toList) (hcore : signed? core = some x) :
    read s = x := by
  have hdecimal := exists_signed?_iff.mp ⟨x, hcore⟩
  rw [read, trimPadding_of_pads h hdecimal.ne_nil hdecimal.isPadding, hcore]
  rfl

/-- A text that is no decimal between padding is not a number, and every other one is. -/
theorem isNaN_read_iff (s : String) :
    (read s).isNaN = false ↔ ∃ core, Pads core s.toList ∧ IsDecimal core := by
  constructor
  · intro h
    refine ⟨_, pads_trimPadding s.toList, exists_signed?_iff.mp ?_⟩
    cases hread : signed? (trimPadding s.toList) with
    | none =>
      rw [read, hread] at h
      exact absurd h (by decide +kernel)
    | some x => exact ⟨x, rfl⟩
  · rintro ⟨core, hpads, hdecimal⟩
    obtain ⟨x, hx⟩ := exists_signed?_iff.mpr hdecimal
    rw [read_eq_of_pads hpads hx]
    exact isNaN_of_signed? hx

end ReactiveForm.Number
