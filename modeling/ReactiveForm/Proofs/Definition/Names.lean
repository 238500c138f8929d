import ReactiveForm.Proofs.Definition.Build
import ReactiveForm.Proofs.Expr.Name

/-!
# Names in definitions

Every part of a definition that is made from a description has a name that is a name in expressions
as well, and this name stands at the end of its reference. What a repeat holds is named like the
repeat.
-/

set_option autoImplicit false

namespace ReactiveForm

/-! ## Characters of names -/

/-- The code points with the property White_Space. -/
def Text.blankCodes : List Nat :=
  [9, 10, 11, 12, 13, 0x20, 0x85, 0xA0, 0x1680, 0x2000, 0x2001, 0x2002, 0x2003, 0x2004, 0x2005,
    0x2006, 0x2007, 0x2008, 0x2009, 0x200A, 0x2028, 0x2029, 0x202F, 0x205F, 0x3000]

theorem Text.mem_blankCodes {c : Char} (h : Text.isBlank c = true) :
    c.toNat ∈ Text.blankCodes := by
  simp only [isBlank, Bool.or_eq_true, Bool.and_eq_true, decide_eq_true_eq] at h
  simp only [blankCodes, List.mem_cons, List.not_mem_nil, or_false]
  omega

theorem Text.isBlank_eq_false {p : Char → Bool} {c : Char}
    (hnone : ∀ n ∈ Text.blankCodes, p (Char.ofNat n) = false) (h : p c = true) :
    Text.isBlank c = false := by
  cases hblank : Text.isBlank c with
  | false => rfl
  | true =>
    have hc := hnone c.toNat (Text.mem_blankCodes hblank)
    rw [Char.ofNat_toNat, h] at hc
    exact nomatch hc

theorem Text.trimStart_eq_self {cs : List Char} (h : ∀ c ∈ cs, Text.isBlank c = false) :
    Text.trimStart cs = cs := by
  cases cs with
  | nil => rfl
  | cons c cs => exact List.dropWhile_cons_of_neg (by simp [h c List.mem_cons_self])

theorem Text.trim_eq_self {cs : List Char} (h : ∀ c ∈ cs, Text.isBlank c = false) :
    Text.trim cs = cs := by
  have hreverse : ∀ c ∈ cs.reverse, isBlank c = false := fun c hc => h c (List.mem_reverse.mp hc)
  rw [trim, trimStart_eq_self h, trimEnd, trimStart_eq_self hreverse, List.reverse_reverse]

theorem Text.trimmed_eq_self {s : String} (h : ∀ c ∈ s.toList, Text.isBlank c = false) :
    Text.trimmed s = s := by
  rw [trimmed, trim_eq_self h, String.ofList_toList]

namespace Description

variable {c : Char}

theorem isBlank_of_isNameChar (h : isNameChar c = true) : Text.isBlank c = false :=
  Text.isBlank_eq_false (by decide +kernel) h

/-- A class of characters lies in another one that holds all but the first 128 characters and of
these what the class holds. -/
theorem imp_of_ascii {p q : Char → Bool}
    (hlow : ∀ n < 0x80, p (Char.ofNat n) = true → q (Char.ofNat n) = true)
    (hhigh : 0x80 ≤ c.toNat → q c = true) (h : p c = true) : q c = true := by
  by_cases hc : c.toNat < 0x80
  · have hmem := hlow c.toNat hc
    rw [Char.ofNat_toNat] at hmem
    exact hmem h
  · exact hhigh (Nat.le_of_not_lt hc)

theorem isNameStart_of_high (h : 0x80 ≤ c.toNat) : Expr.isNameStart c = true := by
  simp only [Expr.isNameStart, Bool.or_eq_true, decide_eq_true_eq]
  exact .inr h

theorem isNameStart_of_isNameStart (h : isNameStart c = true) : Expr.isNameStart c = true :=
  imp_of_ascii (by decide +kernel) isNameStart_of_high h

theorem isNameChar_of_isNameChar (h : isNameChar c = true) : Expr.isNameChar c = true :=
  imp_of_ascii (by decide +kernel)
    (fun hc => Expr.isNameChar_of_isNameStart (isNameStart_of_high hc)) h

theorem isNameChar_of_isNameStart (h : isNameStart c = true) : isNameChar c = true := by
  simp only [isNameStart, Bool.or_eq_true] at h
  simp only [isNameChar, Text.isAlphanumeric, Bool.or_eq_true]
  rcases h with h | h
  · exact .inl (.inl (.inl (.inl h)))
  · exact .inl (.inl (.inr h))

theorem forall_isNameChar {name : String} (h : isName name = true) :
    ∀ c ∈ name.toList, isNameChar c = true := by
  unfold isName at h
  split at h
  · exact nomatch h
  next d ds hd =>
    simp only [Bool.and_eq_true, List.all_eq_true] at h
    rw [hd]
    exact List.forall_mem_cons.mpr ⟨isNameChar_of_isNameStart h.1, h.2⟩

/-- A name in a definition is a name in expressions. -/
theorem isSimpleName {name : String} (h : isName name = true) : Expr.IsSimpleName name.toList := by
  have hall := forall_isNameChar h
  unfold isName at h
  split at h
  · exact nomatch h
  next d ds hd =>
    simp only [Bool.and_eq_true] at h
    refine ⟨d, ds, hd, isNameStart_of_isNameStart h.1, fun c hc => isNameChar_of_isNameChar ?_⟩
    exact hall c (hd ▸ List.mem_cons_of_mem d hc)

end Description

/-- Where the marks stand last, the texts in front of them and behind them agree. -/
theorem eq_of_append_cons {α : Type} {a : α} {xs ys m n : List α} (hm : a ∉ m)
    (hn : a ∉ n) (h : xs ++ a :: m = ys ++ a :: n) : xs = ys ∧ m = n := by
  rcases List.append_eq_append_iff.mp h with ⟨zs, hys, htail⟩ | ⟨zs, hxs, htail⟩
  · cases zs with
    | nil => exact ⟨by simpa using hys.symm, (List.cons.inj htail).2⟩
    | cons z zs =>
      refine absurd ?_ hm
      rw [(List.cons.inj htail).2]
      exact List.mem_append_right _ List.mem_cons_self
  · cases zs with
    | nil => exact ⟨by simpa using hxs, (List.cons.inj htail).2.symm⟩
    | cons z zs =>
      refine absurd ?_ hn
      rw [(List.cons.inj htail).2]
      exact List.mem_append_right _ List.mem_cons_self

namespace Definition

/-- The template of a repeat and its default instances. -/
def repeated : Definition → List Definition
  | range _ template instances => template :: instances
  | _ => []

theorem repeated_cleared (d : Definition) : d.cleared.repeated = d.repeated.map cleared := by
  cases d with
  | range header template instances => simp [cleared, repeated, clearedAll_eq_map]
  | _ => rfl

/-- The definition has a proper name, which ends its reference, and what it repeats is named like
it. -/
structure Named (d : Definition) : Prop where
  name : Description.isName d.name = true
  reference : ∃ parent, d.reference = parent ++ "/" ++ d.name
  repeated : ∀ e ∈ d.repeated, e.name = d.name

theorem slash_not_mem {name : List Char} (h : Expr.IsSimpleName name) : '/' ∉ name :=
  fun hmem => absurd (h.forall_isNameChar '/' hmem) (by decide)

theorem bracket_not_mem {name : List Char} (h : Expr.IsSimpleName name) : '[' ∉ name :=
  fun hmem => absurd (h.forall_isNameChar '[' hmem) (by decide)

theorem Named.isSimpleName {d : Definition} (h : d.Named) : Expr.IsSimpleName d.name.toList :=
  Description.isSimpleName h.name

/-- The reference says what the name is. -/
theorem Named.name_eq {d e : Definition} (hd : d.Named) (he : e.Named)
    (h : d.reference = e.reference) : d.name = e.name := by
  obtain ⟨p, hp⟩ := hd.reference
  obtain ⟨q, hq⟩ := he.reference
  have htexts := congrArg String.toList (hp.symm.trans (h.trans hq))
  simp only [String.toList_append, List.append_assoc] at htexts
  refine String.toList_inj.mp ?_
  exact (eq_of_append_cons (slash_not_mem hd.isSimpleName)
    (slash_not_mem he.isSimpleName) htexts).2

theorem Named.cleared {d : Definition} (h : d.Named) : d.cleared.Named where
  name := by
    rw [Definition.name, header_cleared]
    exact h.name
  reference := by
    rw [Definition.reference, Definition.name, header_cleared]
    exact h.reference
  repeated := by
    rw [repeated_cleared]
    rintro _ hmem
    obtain ⟨e, he, rfl⟩ := List.mem_map.mp hmem
    rw [Definition.name, Definition.name, header_cleared, header_cleared]
    exact h.repeated e he

end Definition

namespace Description

/-- A definition with a proper header, which what it repeats shares by name. -/
theorem Headed.named {header : Header} {d : Definition} (h : Headed header)
    (hname : d.name = header.name) (hreference : d.reference = header.reference)
    (hrepeated : ∀ e ∈ d.repeated, e.header = header) : d.Named where
  name := by
    rw [hname]
    exact h.name
  reference := by
    rw [hname, hreference]
    exact h.reference
  repeated := by
    intro e he
    rw [hname, Definition.name, hrepeated e he]

theorem confers_named : Confers Definition.Named where
  root h _ := h.named rfl rfl nofun
  group h _ := h.named rfl rfl nofun
  inst h _ := h.named rfl rfl nofun
  value h _ := h.named rfl rfl nofun
  select h _ _ _ _ := h.named rfl rfl nofun
  range h htemplate hinstances := by
    refine h.named rfl rfl fun e he => ?_
    rcases List.mem_cons.mp he with rfl | he
    · exact htemplate
    · exact hinstances e he
  cleared _ h := h.cleared

end Description

end ReactiveForm
