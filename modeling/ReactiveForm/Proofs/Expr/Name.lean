import ReactiveForm.Expr.Name

/-!
# Names and what follows them

A name is read back from the front of a text whenever the text behind it cannot continue it.
-/

set_option autoImplicit false

namespace ReactiveForm.Expr

variable {s t n rest : List Char}

/-- The characters of a name without a colon. -/
def IsSimpleName (n : List Char) : Prop :=
  ∃ c cs, n = c :: cs ∧ isNameStart c = true ∧ ∀ d ∈ cs, isNameChar d = true

/-- The characters of a name with at most one colon. -/
def IsQualifiedName (n : List Char) : Prop :=
  IsSimpleName n ∨ ∃ p q, IsSimpleName p ∧ IsSimpleName q ∧ n = p ++ ':' :: q

/-- No character of the class stands in front. -/
def NoneInFront (p : Char → Bool) (s : List Char) : Prop :=
  ∀ c ∈ s.head?, p c = false

theorem noneInFront_nil (p : Char → Bool) : NoneInFront p [] := by
  simp [NoneInFront]

theorem noneInFront_cons {p : Char → Bool} {c : Char} (h : p c = false) (s : List Char) :
    NoneInFront p (c :: s) := by
  simpa [NoneInFront] using h

theorem NoneInFront.takeWhile {p : Char → Bool} (h : NoneInFront p rest) :
    rest.takeWhile p = [] := by
  cases rest with
  | nil => rfl
  | cons c cs => simp [h c rfl]

theorem NoneInFront.dropWhile {p : Char → Bool} (h : NoneInFront p rest) :
    rest.dropWhile p = rest := by
  cases rest with
  | nil => rfl
  | cons c cs => simp [h c rfl]

theorem takeWhile_append_rest {p : Char → Bool} (hn : ∀ c ∈ n, p c = true)
    (hr : NoneInFront p rest) : (n ++ rest).takeWhile p = n := by
  rw [List.takeWhile_append_of_pos hn, hr.takeWhile, List.append_nil]

theorem dropWhile_append_rest {p : Char → Bool} (hn : ∀ c ∈ n, p c = true)
    (hr : NoneInFront p rest) : (n ++ rest).dropWhile p = rest := by
  rw [List.dropWhile_append_of_pos hn, hr.dropWhile]

theorem forall_bne_of_not_mem {c : Char} (h : c ∉ n) : ∀ d ∈ n, (d != c) = true := by
  intro d hd
  refine bne_iff_ne.mpr ?_
  rintro rfl
  exact h hd

theorem isNameChar_of_isNameStart {c : Char} (h : isNameStart c = true) : isNameChar c = true := by
  simp [isNameChar, h]

theorem not_isNameStart {c : Char} (h : isNameChar c = false) : isNameStart c = false := by
  cases hc : isNameStart c with
  | false => rfl
  | true => rw [isNameChar_of_isNameStart hc] at h; cases h

theorem not_isNameStart_of_isDigit {c : Char} (h : c.isDigit = true) : isNameStart c = false := by
  have hne : c ≠ '_' := by
    rintro rfl
    exact absurd h (by decide)
  simp only [Char.isDigit, Bool.and_eq_true, decide_eq_true_eq, ge_iff_le,
    UInt32.le_iff_toNat_le] at h
  have hhigh : c.toNat ≤ 57 := h.2
  have hupper : c.isUpper = false := by
    refine decide_eq_false fun hrange => ?_
    have hlow : 65 ≤ c.toNat := hrange.1
    omega
  have hlower : c.isLower = false := by
    refine Bool.and_eq_false_iff.mpr (.inl (decide_eq_false fun hlow => ?_))
    have hlow : 97 ≤ c.toNat := hlow
    omega
  have halpha : c.isAlpha = false := Bool.or_eq_false_iff.mpr ⟨hupper, hlower⟩
  have hcode : ¬ 0x80 ≤ c.toNat := by omega
  simp [isNameStart, halpha, hne, hcode]

/-! ## Simple names -/

theorem IsSimpleName.forall_isNameChar (h : IsSimpleName n) : ∀ c ∈ n, isNameChar c = true := by
  obtain ⟨c, cs, rfl, hc, hcs⟩ := h
  intro d hd
  rcases List.mem_cons.1 hd with rfl | hd
  · exact isNameChar_of_isNameStart hc
  · exact hcs d hd

theorem IsSimpleName.takeWhile (h : IsSimpleName n) (hr : NoneInFront isNameChar rest) :
    (n ++ rest).takeWhile isNameChar = n :=
  takeWhile_append_rest h.forall_isNameChar hr

theorem IsSimpleName.dropWhile (h : IsSimpleName n) (hr : NoneInFront isNameChar rest) :
    (n ++ rest).dropWhile isNameChar = rest :=
  dropWhile_append_rest h.forall_isNameChar hr

theorem simpleName_append (h : IsSimpleName n) (hr : NoneInFront isNameChar rest) :
    simpleName (n ++ rest) = some (n, rest) := by
  obtain ⟨c, cs, rfl, hc, hcs⟩ := h
  simp only [List.cons_append, simpleName, hc, if_true, takeWhile_append_rest hcs hr,
    dropWhile_append_rest hcs hr]

theorem simpleName_sound (h : simpleName s = some (n, t)) :
    IsSimpleName n ∧ s = n ++ t ∧ NoneInFront isNameChar t := by
  cases s with
  | nil => simp [simpleName] at h
  | cons c rest =>
    by_cases hc : isNameStart c = true
    · simp only [simpleName, hc, if_true, Option.some.injEq, Prod.mk.injEq] at h
      obtain ⟨rfl, rfl⟩ := h
      refine ⟨⟨c, _, rfl, hc, List.all_eq_true.1 List.all_takeWhile⟩, by simp, ?_⟩
      intro d hd
      have hstop := List.head?_dropWhile_not isNameChar rest
      rwa [hd] at hstop
    · simp [simpleName, hc] at h

theorem simpleName_of_not_start (h : NoneInFront isNameStart s) : simpleName s = none := by
  cases s with
  | nil => rfl
  | cons c s => simp [simpleName, h c rfl]

/-! ## Qualified names -/

theorem nameAfterColon_of_ne (h : ∀ c ∈ s.head?, c ≠ ':') : nameAfterColon s = none := by
  unfold nameAfterColon
  split
  · exact absurd rfl (h ':' rfl)
  · rfl

theorem nameAfterColon_of_not_start (h : NoneInFront isNameStart s) :
    nameAfterColon (':' :: s) = none := by
  simp [nameAfterColon, simpleName_of_not_start h]

theorem qualifiedName_append (h : IsQualifiedName n) (hr : NoneInFront isNameChar rest)
    (hcolon : nameAfterColon rest = none) :
    qualifiedName (n ++ rest) = some (String.ofList n, rest) := by
  rcases h with h | ⟨p, q, hp, hq, rfl⟩
  · simp [qualifiedName, simpleName_append h hr, hcolon]
  · have hfirst : simpleName (p ++ ':' :: (q ++ rest)) = some (p, ':' :: (q ++ rest)) :=
      simpleName_append hp (noneInFront_cons (by decide) _)
    simp [qualifiedName, hfirst, nameAfterColon, simpleName_append hq hr]

/-- A name that is read off a text has a colon, or is all that looks like a name in front. -/
theorem qualifiedName_sound {name : String} (h : qualifiedName s = some (name, t)) :
    IsQualifiedName name.toList ∧
      (':' ∈ name.toList ∨ s.takeWhile isNameChar = name.toList ∧ s.dropWhile isNameChar = t) := by
  simp only [qualifiedName, Option.bind_eq_bind, Option.bind_eq_some_iff] at h
  obtain ⟨⟨first, rest⟩, hfirst, h⟩ := h
  obtain ⟨hp, rfl, hstop⟩ := simpleName_sound hfirst
  rcases hsecond : nameAfterColon rest with _ | ⟨second, rest'⟩
  · simp only [hsecond, Option.some.injEq, Prod.mk.injEq] at h
    obtain ⟨rfl, rfl⟩ := h
    exact ⟨.inl (by simpa using hp), .inr (by simp [hp.takeWhile hstop, hp.dropWhile hstop])⟩
  · simp only [hsecond, Option.some.injEq, Prod.mk.injEq] at h
    obtain ⟨rfl, rfl⟩ := h
    unfold nameAfterColon at hsecond
    split at hsecond
    · obtain ⟨⟨q, u⟩, hq, heq⟩ := Option.map_eq_some_iff.1 hsecond
      obtain ⟨rfl, rfl⟩ : ':' :: q = second ∧ u = rest' := by simpa using heq
      exact ⟨.inr ⟨first, q, hp, (simpleName_sound hq).1, by simp⟩, .inl (by simp)⟩
    · cases hsecond

theorem qualifiedName_of_not_start (h : NoneInFront isNameStart s) : qualifiedName s = none := by
  simp [qualifiedName, simpleName_of_not_start h]

theorem IsQualifiedName.simple_prefix (h : IsQualifiedName n) :
    ∃ p q, n = p ++ q ∧ IsSimpleName p ∧ (q = [] ∨ ∃ r, q = ':' :: r ∧ IsSimpleName r) := by
  rcases h with h | ⟨p, q, hp, hq, rfl⟩
  · exact ⟨n, [], by simp, h, .inl rfl⟩
  · exact ⟨p, ':' :: q, rfl, hp, .inr ⟨q, rfl, hq⟩⟩

end ReactiveForm.Expr
