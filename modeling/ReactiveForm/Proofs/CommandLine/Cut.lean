import ReactiveForm.CommandLine.Change

/-!
# Cutting texts at separators

In a text with closed quotations and nested brackets it is clear what stands inside of them. Where
all separators stand inside, the text is not cut, and a separator behind it is the first place to
cut, whatever follows.
-/

set_option autoImplicit false

namespace ReactiveForm

/-- What opens or ends a quotation or a predicate. -/
def enclosingMarks : List Char := ['\'', '"', '[', ']']

theorem not_mem_enclosingMarks {p : Char → Bool} {c : Char}
    (hnone : enclosingMarks.any p = false) (h : p c = true) : c ∉ enclosingMarks :=
  fun hmem => absurd h (List.any_eq_false.mp hnone c hmem)

/-- The text has closed quotations and nested brackets, and separators stand only inside of them,
or anywhere if the whole text is inside. -/
inductive Balanced (separator : Char) : (inside : Bool) → List Char → Prop
  | nil (inside : Bool) : Balanced separator inside []
  | plain {inside : Bool} {c : Char} {text : List Char} : c ∉ enclosingMarks →
    (c = separator → inside = true) → Balanced separator inside text →
    Balanced separator inside (c :: text)
  | quotation {inside : Bool} {mark : Char} {inner text : List Char} : mark = '\'' ∨ mark = '"' →
    mark ∉ inner → Balanced separator inside text →
    Balanced separator inside (mark :: (inner ++ mark :: text))
  | predicate {inside : Bool} {inner text : List Char} : Balanced separator true inner →
    Balanced separator inside text → Balanced separator inside ('[' :: (inner ++ ']' :: text))

namespace Balanced

variable {separator : Char} {inside : Bool} {r s : List Char}

theorem append (hr : Balanced separator inside r) (hs : Balanced separator inside s) :
    Balanced separator inside (r ++ s) := by
  induction hr with
  | nil => exact hs
  | plain hc hseparator _ ih => exact .plain hc hseparator (ih hs)
  | quotation hmark hinner _ ih =>
    rw [List.cons_append, List.append_assoc, List.cons_append]
    exact .quotation hmark hinner (ih hs)
  | predicate hinner _ _ ih =>
    rw [List.cons_append, List.append_assoc, List.cons_append]
    exact .predicate hinner (ih hs)

/-- A text of plain characters, without separators unless it is inside. -/
theorem of_forall (hplain : ∀ c ∈ r, c ∉ enclosingMarks)
    (hseparator : separator ∈ r → inside = true) : Balanced separator inside r := by
  induction r with
  | nil => exact .nil inside
  | cons c r ih =>
    obtain ⟨hc, hr⟩ := List.forall_mem_cons.mp hplain
    refine .plain hc (fun heq => hseparator ?_) (ih hr fun h => hseparator ?_)
    · rw [heq]
      exact List.mem_cons_self
    · exact List.mem_cons_of_mem c h

end Balanced

/-! ## One character -/

/-- The parts of a text that has more in front. -/
def putBefore (front : List Char) (parts : List Char × List Char) : List Char × List Char :=
  (front ++ parts.1, parts.2)

variable {separator c mark : Char} {depth : Nat} {r rest : List Char}

theorem map_putBefore (front back : List Char) (cut : Option (List Char × List Char)) :
    (cut.map (putBefore back)).map (putBefore front) = cut.map (putBefore (front ++ back)) := by
  have hparts : putBefore front ∘ putBefore back = putBefore (front ++ back) := by
    funext parts
    simp [putBefore]
  rw [Option.map_map, hparts]

theorem map_putBefore_nil (cut : Option (List Char × List Char)) :
    cut.map (putBefore []) = cut := by
  cases cut <;> rfl

theorem cutOutside_mark (h : mark = '\'' ∨ mark = '"') (separator : Char) (depth : Nat)
    (cs : List Char) : cutOutside separator depth none (mark :: cs)
      = (cutOutside separator depth (some mark) cs).map (putBefore [mark]) := by
  have hmark : (decide (mark = '\'') || decide (mark = '"')) = true := by simpa using h
  rw [cutOutside, if_pos hmark]
  rfl

theorem cutOutside_open (separator : Char) (depth : Nat) (cs : List Char) :
    cutOutside separator depth none ('[' :: cs)
      = (cutOutside separator (depth + 1) none cs).map (putBefore ['[']) :=
  rfl

theorem cutOutside_close (separator : Char) (depth : Nat) (cs : List Char) :
    cutOutside separator (depth + 1) none (']' :: cs)
      = (cutOutside separator depth none cs).map (putBefore [']']) :=
  rfl

theorem cutOutside_plain (h : c ∉ enclosingMarks) (hc : c = separator → 0 < depth)
    (cs : List Char) : cutOutside separator depth none (c :: cs)
      = (cutOutside separator depth none cs).map (putBefore [c]) := by
  simp only [enclosingMarks, List.mem_cons, List.not_mem_nil, or_false, not_or] at h
  have hhere : (decide (c = separator) && decide (depth = 0)) = false := by
    simp only [Bool.and_eq_false_iff, decide_eq_false_iff_not]
    by_cases heq : c = separator
    · exact .inr (Nat.pos_iff_ne_zero.mp (hc heq))
    · exact .inl heq
  simp only [cutOutside, h, hhere, decide_false, Bool.or_self, Bool.false_eq_true, if_false]
  rfl

theorem cutOutside_separator (h : separator ∉ enclosingMarks) (cs : List Char) :
    cutOutside separator 0 none (separator :: cs) = some ([], cs) := by
  simp only [enclosingMarks, List.mem_cons, List.not_mem_nil, or_false, not_or] at h
  simp [cutOutside, h]

/-! ## Texts in front -/

/-- A quotation is passed over up to its end. -/
theorem cutOutside_quotation (h : mark ∉ r) (separator : Char) (depth : Nat) (rest : List Char) :
    cutOutside separator depth (some mark) (r ++ mark :: rest)
      = (cutOutside separator depth none rest).map (putBefore (r ++ [mark])) := by
  induction r with
  | nil =>
    rw [List.nil_append, cutOutside, if_pos rfl]
    rfl
  | cons c r ih =>
    simp only [List.mem_cons, not_or] at h
    rw [List.cons_append, cutOutside, if_neg (Ne.symm h.1), ih h.2]
    exact map_putBefore [c] (r ++ [mark]) _

/-- A balanced text is passed over, at the depth in brackets where it stands. -/
theorem Balanced.cutOutside_append {inside : Bool} (h : Balanced separator inside r)
    (hdepth : inside = true → 0 < depth) (rest : List Char) :
    cutOutside separator depth none (r ++ rest)
      = (cutOutside separator depth none rest).map (putBefore r) := by
  induction h generalizing depth rest with
  | nil => rw [List.nil_append, map_putBefore_nil]
  | @plain _ c text hc hinside _ ih =>
    rw [List.cons_append, cutOutside_plain hc (fun heq => hdepth (hinside heq)), ih hdepth,
      map_putBefore, List.singleton_append]
  | @quotation _ mark inner text hmark hinner _ ih =>
    rw [List.cons_append, List.append_assoc, List.cons_append, cutOutside_mark hmark,
      cutOutside_quotation hinner, ih hdepth, map_putBefore, map_putBefore]
    simp
  | @predicate _ inner text _ _ ihinner ih =>
    rw [List.cons_append, List.append_assoc, List.cons_append, cutOutside_open,
      ihinner (fun _ => Nat.succ_pos depth), cutOutside_close, ih hdepth, map_putBefore,
      map_putBefore, map_putBefore]
    simp

/-! ## Parts -/

namespace Balanced

theorem cutOutside_eq_none (h : Balanced separator false r) :
    cutOutside separator 0 none r = none := by
  have happend := h.cutOutside_append (nofun : false = true → 0 < 0) []
  rwa [List.append_nil] at happend

theorem cutOutside_eq_some (h : Balanced separator false r) (hseparator : separator ∉ enclosingMarks)
    (rest : List Char) : cutOutside separator 0 none (r ++ separator :: rest) = some (r, rest) := by
  rw [h.cutOutside_append nofun, cutOutside_separator hseparator]
  simp [putBefore]

theorem splitOutside_self (h : Balanced separator false r) (cuts : Nat) :
    splitOutside separator cuts r = [r] := by
  cases cuts with
  | zero => rfl
  | succ cuts => rw [splitOutside, h.cutOutside_eq_none]

theorem splitOutside_append (h : Balanced separator false r) (hseparator : separator ∉ enclosingMarks)
    (cuts : Nat) (rest : List Char) : splitOutside separator (cuts + 1) (r ++ separator :: rest)
      = r :: splitOutside separator cuts rest := by
  rw [splitOutside, h.cutOutside_eq_some hseparator]

end Balanced

end ReactiveForm
