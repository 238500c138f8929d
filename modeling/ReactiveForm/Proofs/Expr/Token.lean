import ReactiveForm.Proofs.Expr.Proper
import ReactiveForm.Proofs.Expr.Reread

/-!
# What may stand behind an operand

Each token of canonical text is read back when what stands behind it cannot continue it. Behind
an operand stand a closing mark, a comma, an operator between blanks or the end.
-/

set_option autoImplicit false

namespace ReactiveForm.Expr

open Rule

variable {s t u rest : List Char} {c d : Char}

/-- The mark does not come next. -/
def NotNext (c : Char) (s : List Char) : Prop :=
  (skipBlanks s).head? ≠ some c

theorem NotNext.char (h : NotNext c s) : Scan.char c (skipBlanks s) = none := by
  unfold NotNext at h
  cases hs : skipBlanks s with
  | nil => rfl
  | cons d t =>
    rw [hs] at h
    simp only [Scan.char, ite_eq_right_iff]
    intro hd
    exact absurd (by rw [hd]; rfl) h

theorem NotNext.mark (h : NotNext c s) : (mark c s).parsed = none :=
  h.char

theorem notNext_of_ne (hs : skipBlanks s = d :: t) (h : d ≠ c) : NotNext c s := by
  simpa [NotNext, hs] using h

theorem NotNext.head? (h : NotNext c s) (hc : Number.isPadding c = false) :
    ∀ d ∈ s.head?, d ≠ c := by
  rintro d hd rfl
  cases s with
  | nil => cases hd
  | cons a t =>
    obtain rfl : a = d := by simpa using hd
    exact h (by rw [skipBlanks_cons hc]; rfl)

theorem notNext_of_nil (hs : skipBlanks s = []) : NotNext c s := by
  simp [NotNext, hs]

theorem char_cons (c : Char) (s : List Char) : Scan.char c (c :: s) = some ((), s) := by
  simp [Scan.char]

theorem mark_of_next (hs : skipBlanks s = c :: t) : (mark c s).parsed = some ((), t) := by
  rw [parsed_mark, hs, char_cons]

/-- What may stand behind a location step. -/
structure EndsStep (rest : List Char) : Prop where
  name : NoneInFront isNameChar rest
  colon : NotNext ':' rest
  bracket : NotNext '[' rest
  parenthesis : NotNext '(' rest

/-- What may stand behind a path. -/
structure EndsPath (rest : List Char) : Prop extends EndsStep rest where
  slash : NotNext '/' rest

/-- What may stand behind an expression: the end, a closing mark or a comma. -/
def Closes (rest : List Char) : Prop :=
  rest = [] ∨ ∃ c t, rest = c :: t ∧ c ∈ [')', ']', ',']

theorem closes_cons (h : c ∈ [')', ']', ',']) (t : List Char) : Closes (c :: t) :=
  .inr ⟨c, t, rfl, h⟩

theorem skipBlanks_of_closes (h : Closes rest) : skipBlanks rest = rest := by
  rcases h with rfl | ⟨c, t, rfl, hc⟩
  · rfl
  · simp only [List.mem_cons, List.not_mem_nil, or_false] at hc
    refine skipBlanks_cons ?_ t
    rcases hc with rfl | rfl | rfl <;> decide

theorem endsPath_of_closes (h : Closes rest) : EndsPath rest := by
  have hskip := skipBlanks_of_closes h
  rcases h with rfl | ⟨c, t, rfl, hc⟩
  · exact ⟨⟨noneInFront_nil _, notNext_of_nil rfl, notNext_of_nil rfl, notNext_of_nil rfl⟩,
      notNext_of_nil rfl⟩
  · simp only [List.mem_cons, List.not_mem_nil, or_false] at hc
    rcases hc with rfl | rfl | rfl <;>
    exact ⟨⟨noneInFront_cons (by decide) _, notNext_of_ne hskip (by decide),
      notNext_of_ne hskip (by decide), notNext_of_ne hskip (by decide)⟩,
      notNext_of_ne hskip (by decide)⟩

/-- A blank and a mark that starts neither a predicate, nor a step, nor arguments. -/
theorem endsPath_of_blank (hs : skipBlanks (' ' :: rest) = d :: t)
    (hd : d ∉ ['[', '(', '/', ':']) : EndsPath (' ' :: rest) := by
  simp only [List.mem_cons, List.not_mem_nil, or_false, not_or] at hd
  exact ⟨⟨noneInFront_cons (by decide) _, notNext_of_ne hs hd.2.2.2, notNext_of_ne hs hd.1,
    notNext_of_ne hs hd.2.1⟩, notNext_of_ne hs hd.2.2.1⟩

/-! ## Operators -/

/-- The operators of the levels, from weak to strong. -/
def operators : List (Rule Operator) :=
  [orOperator, andOperator, equalityOperator, orderOperator, sumOperator, productOperator]

theorem level_eq (inner : Rule Expr) : level inner = operators.foldr chain (signedExpr inner) :=
  rfl

/-- An operator between its operands. -/
def between (op : Operator) (right : List Char) : List Char :=
  ' ' :: op.symbol.toList ++ ' ' :: right

theorem word_refuses {w : List Char} (h : ∀ d ∈ s.head?, d ≠ c) : Scan.word (c :: w) s = none := by
  cases s with
  | nil => rfl
  | cons d t => simp [Scan.word, Scan.char, h d rfl]

theorem keyword_refuses {w : String} (h : NoneInFront isNameChar s) (hw : w.toList ≠ []) :
    keyword w s = none := by
  rw [keyword, h.takeWhile, if_neg hw.symm]

/-- The marks that operators start with. -/
def operatorMarks : List Char := ['=', '!', '<', '>', '+', '-', '*']

/-- No operator starts with a mark of another kind. -/
theorem operators_refuse (hname : NoneInFront isNameChar (skipBlanks s))
    (hsign : ∀ c ∈ (skipBlanks s).head?, c ∉ operatorMarks) :
    ∀ o ∈ operators, (o s).parsed = none := by
  have hword : ∀ c ∈ operatorMarks, ∀ w, Scan.word (c :: w) (skipBlanks s) = none :=
    fun c hc w => word_refuses fun d hd heq => hsign d hd (heq ▸ hc)
  simp only [operatorMarks, List.forall_mem_cons] at hword
  simp [operators, orOperator, andOperator, equalityOperator, orderOperator, sumOperator,
    productOperator, operatorName, sign, hword, keyword_refuses hname]

theorem operators_refuse_of_mark (hs : skipBlanks s = c :: t)
    (hc : c ∈ [')', ']', ',', '(', '[', '|']) : ∀ o ∈ operators, (o s).parsed = none := by
  have hmark : isNameChar c = false ∧ c ∉ operatorMarks := by
    simp only [List.mem_cons, List.not_mem_nil, or_false] at hc
    rcases hc with rfl | rfl | rfl | rfl | rfl | rfl <;> decide
  refine operators_refuse ?_ ?_ <;> rw [hs]
  · exact noneInFront_cons hmark.1 t
  · intro d hd
    obtain rfl : c = d := by simpa using hd
    exact hmark.2

theorem operators_refuse_of_closes (h : Closes rest) : ∀ o ∈ operators, (o rest).parsed = none := by
  have hskip := skipBlanks_of_closes h
  rcases h with rfl | ⟨c, t, rfl, hc⟩
  · refine operators_refuse ?_ ?_ <;> simp [NoneInFront]
  · apply operators_refuse_of_mark hskip
    simp only [List.mem_cons, List.not_mem_nil, or_false] at hc ⊢
    rcases hc with hc | hc | hc <;> simp [hc]

theorem skipBlanks_between (op : Operator) (u : List Char) :
    ∃ d t, skipBlanks (between op u) = d :: t ∧ d ∉ ['[', '(', '/', ':', '|', ')'] := by
  cases op <;> exact ⟨_, _, rfl, by decide⟩

theorem endsPath_between (op : Operator) (u : List Char) : EndsPath (between op u) := by
  obtain ⟨d, t, hs, hd⟩ := skipBlanks_between op u
  refine endsPath_of_blank hs fun hmem => hd ?_
  simp only [List.mem_cons, List.not_mem_nil, or_false] at hmem ⊢
  rcases hmem with h | h | h | h <;> simp [h]

theorem notNext_between (op : Operator) (u : List Char) (hc : c ∈ ['|', ')']) :
    NotNext c (between op u) := by
  obtain ⟨d, t, hs, hd⟩ := skipBlanks_between op u
  refine notNext_of_ne hs ?_
  rintro rfl
  simp only [List.mem_cons, List.not_mem_nil, or_false] at hc
  rcases hc with rfl | rfl <;> exact hd (by decide)

/-- The level of an operator, and no other level, reads it. -/
theorem operators_split (op : Operator) :
    ∃ before o after, operators = before ++ o :: after ∧
      ∀ u, (o (between op u)).parsed = some (op, ' ' :: u) ∧
        ∀ p ∈ before ++ after, (p (between op u)).parsed = none := by
  cases op with
  | or => exact ⟨[], _, _, rfl, fun u => ⟨rfl, by simp; exact ⟨rfl, rfl, rfl, rfl, rfl⟩⟩⟩
  | and => exact ⟨[_], _, _, rfl, fun u => ⟨rfl, by simp; exact ⟨rfl, rfl, rfl, rfl, rfl⟩⟩⟩
  | eq | ne =>
    exact ⟨[_, _], _, _, rfl, fun u => ⟨rfl, by simp; exact ⟨rfl, rfl, rfl, rfl, rfl⟩⟩⟩
  | lt | le | gt | ge =>
    exact ⟨[_, _, _], _, _, rfl, fun u => ⟨rfl, by simp; exact ⟨rfl, rfl, rfl, rfl, rfl⟩⟩⟩
  | add | sub =>
    exact ⟨[_, _, _, _], _, _, rfl, fun u => ⟨rfl, by simp; exact ⟨rfl, rfl, rfl, rfl, rfl⟩⟩⟩
  | mul | div | mod =>
    exact ⟨[_, _, _, _, _], _, _, rfl, fun u => ⟨rfl, by simp; exact ⟨rfl, rfl, rfl, rfl, rfl⟩⟩⟩

/-! ## Levels -/

variable {operand : Rule Expr} {o : Rule Operator} {op : Operator} {l r e : Expr}

theorem chain_of_refused (h : (operand s).parsed = none) : (chain o operand s).parsed = none := by
  simp [chain, h]

theorem chain_of_stop (h : (operand s).parsed = some (e, t)) (ho : (o t).parsed = none) :
    (chain o operand s).parsed = some (e, t) := by
  have hmany : (many (do let op ← o; let right ← operand; pure (op, right)) t).parsed =
      some ([], t) := many_of_none (by simp [ho])
  simp [chain, h, hmany]

/-- An operator without an operand behind it is left where it is. -/
theorem chain_of_stuck (h : (operand s).parsed = some (e, t)) (ho : (o t).parsed = some (op, u))
    (hr : (operand u).parsed = none) : (chain o operand s).parsed = some (e, t) := by
  have hmany : (many (do let op ← o; let right ← operand; pure (op, right)) t).parsed =
      some ([], t) := many_of_none (by simp [ho, hr])
  simp [chain, h, hmany]

theorem chain_of_once (h : (operand s).parsed = some (l, t)) (ht : t ≠ [])
    (ho : (o t).parsed = some (op, u)) (hr : (operand u).parsed = some (r, rest))
    (hstop : (o rest).parsed = none) : (chain o operand s).parsed = some (.binary op l r, rest) := by
  have hmany : (many (do let op ← o; let right ← operand; pure (op, right)) t).parsed =
      some ([(op, r)], rest) := many_of_once (by simp [ho, hr]) ht (by simp [hstop])
  simp [chain, h, hmany]

theorem levels_of_refused {os : List (Rule Operator)} (h : (operand s).parsed = none) :
    (os.foldr chain operand s).parsed = none := by
  induction os with
  | nil => exact h
  | cons o os ih => exact chain_of_refused ih

theorem levels_of_stop {os : List (Rule Operator)} (h : (operand s).parsed = some (e, t))
    (hos : ∀ o ∈ os, (o t).parsed = none) : (os.foldr chain operand s).parsed = some (e, t) := by
  induction os with
  | nil => exact h
  | cons o os ih =>
    exact chain_of_stop (ih fun p hp => hos p (List.mem_cons_of_mem _ hp)) (hos o (by simp))

/-- Where no operand can be read behind the operator, only the left one is read. -/
theorem levels_of_stuck (h : (operand s).parsed = some (e, between op u))
    (hr : (operand (' ' :: u)).parsed = none) :
    (operators.foldr chain operand s).parsed = some (e, between op u) := by
  obtain ⟨before, o, after, heq, hsplit⟩ := operators_split op
  obtain ⟨ho, hother⟩ := hsplit u
  rw [heq, List.foldr_append, List.foldr_cons]
  refine levels_of_stop ?_ fun p hp => hother p (by simp [hp])
  refine chain_of_stuck ?_ ho (levels_of_refused hr)
  exact levels_of_stop h fun p hp => hother p (by simp [hp])

/-- Two operands around an operator, of whatever level, with no further operator behind them. -/
theorem levels_of_once (h : (operand s).parsed = some (l, between op u))
    (hr : (operand (' ' :: u)).parsed = some (r, rest))
    (hstop : ∀ o ∈ operators, (o rest).parsed = none) :
    (operators.foldr chain operand s).parsed = some (.binary op l r, rest) := by
  obtain ⟨before, o, after, heq, hsplit⟩ := operators_split op
  obtain ⟨ho, hother⟩ := hsplit u
  rw [heq] at hstop ⊢
  rw [List.foldr_append, List.foldr_cons]
  refine levels_of_stop ?_ fun p hp => hstop p (by simp [hp])
  refine chain_of_once ?_ (by simp [between]) ho ?_ (hstop o (by simp))
  · exact levels_of_stop h fun p hp => hother p (by simp [hp])
  · exact levels_of_stop hr fun p hp => hstop p (by simp [hp])

end ReactiveForm.Expr
