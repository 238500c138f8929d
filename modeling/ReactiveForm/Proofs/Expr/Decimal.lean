import ReactiveForm.Eval
import ReactiveForm.Proofs.Expr.Precedence

/-!
# Decimals as expressions

The text of a number is an expression as well, with the same value: a literal, or the sign in front
of one. Padding around an expression does not matter to it.
-/

set_option autoImplicit false

namespace ReactiveForm

namespace Expr

open Rule

variable {rest : List Char} {e : Expr}

/-! ## Padding -/

theorem isNameChar_of_isPadding {c : Char} (hc : Number.isPadding c = true) :
    isNameChar c = false := by
  simp only [Number.isPadding, Bool.or_eq_true, decide_eq_true_eq] at hc
  rcases hc with ((rfl | rfl) | rfl) | rfl <;> decide

/-- Nothing but padding up to the end of the text ends all expressions. -/
theorem ends_of_isPadding (h : ∀ c ∈ rest, Number.isPadding c = true) (k : Nat) : Ends k rest := by
  have hskip : skipBlanks rest = [] := List.dropWhile_eq_nil_iff.mpr h
  have hname : NoneInFront isNameChar rest :=
    fun c hc => isNameChar_of_isPadding (h c (List.mem_of_head? hc))
  have hnext (c : Char) : NotNext c rest := notNext_of_nil hskip
  refine ⟨⟨⟨hname, hnext _, hnext _, hnext _⟩, hnext _⟩, fun _ => hnext _, fun n _ => ?_⟩
  refine operators_refuse ?_ ?_ _ (joint_mem n)
  · rw [hskip]
    exact noneInFront_nil _
  · rw [hskip]
    exact fun c hc => nomatch hc

/-- Padding around an expression does not matter. -/
theorem read_of_pads {numeral : Float → List Char} (h : e.Combined numeral) {s : String}
    (hs : Number.Pads (e.terse numeral) s.toList) : read s = .ok e := by
  obtain ⟨before, after, htext, hbefore, hafter⟩ := hs
  have hskip : skipBlanks s.toList = e.terse numeral ++ after := by
    have hbegins := h.starts.begins.skipBlanks after
    rw [htext, List.append_assoc, skipBlanks, List.dropWhile_append_of_pos hbefore]
    exact hbegins
  have hlength : (e.terse numeral).length ≤ s.toList.length := by
    rw [htext]
    simp only [List.length_append]
    omega
  have hread : Reads (expr s.toList.length) 8 s.toList e after :=
    (h.reads _ _ _ hlength hskip (ends_of_isPadding hafter _)).raise e.grade_le
      (ends_of_isPadding hafter _) fun hk => h.starts.notNext hk hskip
  have hend : (token endOfText after).parsed = some ((), []) := by
    rw [parsed_token, skipBlanks, List.dropWhile_eq_nil_iff.mpr hafter]
    rfl
  have hwhole : (whole s.toList).parsed = some (e, []) :=
    (parsed_bind_of_some (hread.tier (ends_of_isPadding hafter 8))).trans
      (parsed_bind_of_some hend)
  rw [read_eq_ok_iff, hwhole]
  rfl

/-! ## Decimals -/

theorem evaluate_number {N : Type} [DecidableEq N] [Ord N] (env : Environment N) (x : Float) :
    env.evaluate (.number x) = .ok (.number x) := by
  simp only [Environment.evaluate, Environment.eval]
  rfl

theorem evaluate_negate_number {N : Type} [DecidableEq N] [Ord N] (env : Environment N)
    (x : Float) : env.evaluate (.negate (.number x)) = .ok (.number (-x)) := by
  simp only [Environment.evaluate, Environment.eval]
  rfl

/-- A decimal is read as a literal or as the sign of one. -/
theorem exists_read_of_signed? {core : List Char} {x : Float} (hx : Number.signed? core = some x)
    {s : String} (hs : Number.Pads core s.toList) :
    ∃ e, read s = .ok e ∧ ∀ {N : Type} [DecidableEq N] [Ord N] (env : Environment N),
      env.evaluate e = .ok (.number x) := by
  unfold Number.signed? at hx
  split at hx
  next cs =>
    obtain ⟨y, hy, rfl⟩ := Option.map_eq_some_iff.mp hx
    have hcombined : Combined (fun _ => cs) (.negate (.number y)) := .negate (.number hy)
    exact ⟨_, read_of_pads hcombined hs, fun env => evaluate_negate_number env y⟩
  next =>
    have hcombined : Combined (fun _ => core) (.number x) := .number hx
    exact ⟨_, read_of_pads hcombined hs, fun env => evaluate_number env x⟩

end Expr

/-- A text is a number exactly when it is a plain decimal with nothing but padding around it. Then
it is an expression too, and the value of the expression is that number. -/
theorem Number.read_agrees (s : String) :
    ((Number.read s).isNaN = false ↔ ∃ core, Number.Pads core s.toList ∧ Number.IsDecimal core) ∧
    ((Number.read s).isNaN = false → ∃ e, Expr.read s = .ok e ∧
      ∀ {N : Type} [DecidableEq N] [Ord N] (env : Environment N),
        env.evaluate e = .ok (.number (Number.read s))) := by
  have hiff := Number.isNaN_read_iff s
  refine ⟨hiff, fun hnumber => ?_⟩
  obtain ⟨core, hpads, hdecimal⟩ := hiff.mp hnumber
  obtain ⟨x, hx⟩ := Number.exists_signed?_iff.mpr hdecimal
  rw [Number.read_eq_of_pads hpads hx]
  exact Expr.exists_read_of_signed? hx hpads

/-- A sign, no digits in front of the point, and blanks on both sides. -/
theorem Number.read_agrees_padded :
    (Number.read "\t-.50 \n").isNaN = false ∧ ∃ e, Expr.read "\t-.50 \n" = .ok e ∧
      ∀ {N : Type} [DecidableEq N] [Ord N] (env : Environment N),
        env.evaluate e = .ok (.number (Number.read "\t-.50 \n")) := by
  obtain ⟨hiff, hvalue⟩ := Number.read_agrees "\t-.50 \n"
  have hpads : Number.Pads ['-', '.', '5', '0'] "\t-.50 \n".toList :=
    ⟨['\t'], [' ', '\n'], by decide +kernel, by simp [Number.isPadding], by simp [Number.isPadding]⟩
  have hdigits : Number.AllDigits ['5', '0'] := List.all_eq_true.mp rfl
  have hnumber := hiff.mpr ⟨_, hpads, .negative (.fraction (by decide) hdigits)⟩
  exact ⟨hnumber, hvalue hnumber⟩

end ReactiveForm
