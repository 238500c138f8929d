import ReactiveForm.Proofs.Expr.Operand

/-!
# Reading canonical text again

`operand_canonical` goes through an expression by the depth of its brackets: what stands inside
brackets is read one level deeper, where the text is shorter. Put together with
`reread_eq_self_iff` it says which expressions survive being written and read.
-/

set_option autoImplicit false

namespace ReactiveForm.Expr

open Rule

variable {s t u rest : List Char} {inner : Rule Expr}

/-! ## Signs -/

/-- The canonical text behind the sign. -/
def operandText : Expr → List Char
  | .negate e => '(' :: e.canonical ++ [')']
  | e => e.canonical

/-- Behind a sign, the canonical text of `e` is read as `rereadOperand e`. -/
structure ReadsOperand (inner : Rule Expr) (e : Expr) : Prop where
  begins : Begins (operandText e)
  unsigned : (operandText e).head? ≠ some '-'
  reads : ∀ s rest, skipBlanks s = operandText e ++ rest → EndsPath rest →
    Rereads (pathExpr inner s).parsed (rereadOperand e) rest

theorem canonical_of_negation {e : Expr} (h : e.isNegation = true) :
    e.canonical = '-' :: operandText e := by
  cases e <;> first | rfl | cases h

theorem canonical_of_not_negation {e : Expr} (h : e.isNegation = false) :
    e.canonical = operandText e := by
  cases e <;> first | rfl | cases h

theorem ReadsOperand.begins_canonical {e : Expr} (h : ReadsOperand inner e) :
    Begins e.canonical := by
  cases hneg : e.isNegation with
  | true => exact canonical_of_negation hneg ▸ begins_cons (by decide) (by decide) _
  | false => exact canonical_of_not_negation hneg ▸ h.begins

theorem ReadsOperand.notNext_sign {e : Expr} (h : ReadsOperand inner e)
    (hs : skipBlanks s = operandText e ++ rest) : NotNext '-' s := by
  have hunsigned := h.unsigned
  obtain ⟨c, t, heq, -⟩ := h.begins
  rw [heq] at hs hunsigned
  exact notNext_of_ne hs fun hc => hunsigned (by rw [hc]; rfl)

/-- The rule for one sign. -/
def signRule : Rule Unit := token (Scan.char '-')

theorem signRule_of_notNext (h : NotNext '-' s) : (signRule s).parsed = none := by
  rw [signRule, parsed_token, h.char]

/-- One sign is read off a negation, and none off anything else. -/
theorem many_signs {e : Expr} (h : ReadsOperand inner e)
    (hs : skipBlanks s = e.canonical ++ rest) :
    ∃ signs t, (many signRule s).parsed = some (signs, t) ∧
      skipBlanks t = operandText e ++ rest ∧
      ∀ x : Expr, signs.foldl (fun x _ => x.negate) x = signed e x := by
  cases hneg : e.isNegation with
  | false =>
    rw [canonical_of_not_negation hneg] at hs
    refine ⟨[], s, many_of_none (signRule_of_notNext (h.notNext_sign hs)), hs, fun x => ?_⟩
    rw [signed, hneg]
    rfl
  | true =>
    rw [canonical_of_negation hneg, List.cons_append] at hs
    have hskip := h.begins.skipBlanks rest
    refine ⟨[()], operandText e ++ rest, many_of_once (a := ()) ?_ ?_
      (signRule_of_notNext (h.notNext_sign hskip)), hskip, fun x => ?_⟩
    · rw [signRule, parsed_token, hs, char_cons]
    · rintro rfl
      cases hs
    · rw [signed, hneg]
      rfl

/-! ## Unions -/

/-- An operand behind the mark of a union. -/
def nextOperand (inner : Rule Expr) : Rule Expr := do
  token (Scan.char '|')
  pathExpr inner

theorem nextOperand_of_notNext (h : NotNext '|' s) : (nextOperand inner s).parsed = none := by
  refine parsed_bind_of_none ?_
  rw [parsed_token, h.char]

theorem nextOperand_eq (inner : Rule Expr) (hs : skipBlanks s = '|' :: t) :
    (nextOperand inner s).parsed = (pathExpr inner t).parsed := by
  have hbar : (token (Scan.char '|') s).parsed = some ((), t) := by
    rw [parsed_token, hs, char_cons]
  exact parsed_bind_of_some hbar

theorem unionExpr_of_operands {e : Expr} {more : List Expr}
    (h : (pathExpr inner s).parsed = some (e, t)) (hmore : Repeats (nextOperand inner) t more u) :
    (unionExpr inner s).parsed = some (more.foldl .union e, u) :=
  (parsed_bind_of_some h).trans (parsed_bind_of_some hmore.many)

/-- A path without a sign, with nothing but a closing mark behind it, is a whole expression. -/
theorem level_of_pathExpr {e : Expr} (hsign : NotNext '-' s)
    (h : (pathExpr inner s).parsed = some (e, t)) (ht : Closes t) :
    (level inner s).parsed = some (e, t) := by
  have hbar : NotNext '|' t := by
    have hskip := skipBlanks_of_closes ht
    rcases ht with rfl | ⟨c, u, rfl, hc⟩
    · exact notNext_of_nil rfl
    · refine notNext_of_ne hskip ?_
      rintro rfl
      exact absurd hc (by decide)
  have hsigns : (many signRule s).parsed = some ([], s) := many_of_none (signRule_of_notNext hsign)
  have hsigned : (signedExpr inner s).parsed = some (e, t) :=
    (parsed_bind_of_some hsigns).trans <|
      parsed_bind_of_some (unionExpr_of_operands h (.stop (nextOperand_of_notNext hbar)))
  exact levels_of_stop hsigned (operators_refuse_of_closes ht)

/-- What is read of a signed expression, given what is read behind its sign. -/
theorem signedExpr_eq {e : Expr} (h : ReadsOperand inner e)
    (hs : skipBlanks s = e.canonical ++ rest) :
    ∃ t, skipBlanks t = operandText e ++ rest ∧
      (signedExpr inner s).parsed =
        (unionExpr inner t).parsed.map fun r => (signed e r.1, r.2) := by
  obtain ⟨signs, t, hsigns, ht, hfold⟩ := many_signs h hs
  refine ⟨t, ht, (parsed_bind_of_some hsigns).trans ?_⟩
  rw [parsed_bind]
  cases (unionExpr inner t).parsed with
  | none => rfl
  | some r => simp [hfold]

theorem signedExpr_canonical {e : Expr} (h : ReadsOperand inner e)
    (hs : skipBlanks s = e.canonical ++ rest) (hrest : EndsPath rest) (hbar : NotNext '|' rest) :
    Rereads (signedExpr inner s).parsed (reread e) rest := by
  obtain ⟨t, ht, heq⟩ := signedExpr_eq h hs
  have hpath := h.reads t rest ht hrest
  rw [heq, reread]
  cases hread : rereadOperand e with
  | some a =>
    rw [hread] at hpath
    rw [unionExpr_of_operands hpath (.stop (nextOperand_of_notNext hbar))]
    rfl
  | none =>
    rw [hread] at hpath
    intro x v hx
    cases hr : (pathExpr inner t).parsed with
    | none => rw [unionExpr, parsed_bind_of_none hr] at hx; cases hx
    | some r =>
      have hopens := hpath r.1 r.2 hr
      rw [unionExpr_of_operands hr (.stop (nextOperand_of_notNext (hopens.notNext (by decide))))]
        at hx
      obtain ⟨-, rfl⟩ := Prod.mk.inj (Option.some.inj hx)
      exact hopens

/-! ## One level deeper -/

theorem operators_refuse_of_opens (h : Opens t) : ∀ o ∈ operators, (o t).parsed = none := by
  have hskip := h.skipBlanks_eq
  obtain ⟨v, rfl | rfl⟩ := h <;> exact operators_refuse_of_mark hskip (by decide)

theorem level_canonical {e : Expr} (h : ReadsOperand inner e) : ReadsInside (level inner) e := by
  refine ⟨h.begins_canonical, fun s rest hs hrest => ?_⟩
  have hbar : NotNext '|' rest := by
    have hskip := skipBlanks_of_closes hrest
    rcases hrest with rfl | ⟨c, t, rfl, hc⟩
    · exact notNext_of_nil rfl
    · refine notNext_of_ne hskip ?_
      rintro rfl
      exact absurd hc (by decide)
  have hsigned := signedExpr_canonical h hs (endsPath_of_closes hrest) hbar
  rw [level_eq]
  cases hread : reread e with
  | some a =>
    rw [hread] at hsigned
    exact levels_of_stop hsigned (operators_refuse_of_closes hrest)
  | none =>
    rw [hread] at hsigned
    cases hr : (signedExpr inner s).parsed with
    | none =>
      intro x v hx
      rw [levels_of_refused hr] at hx
      cases hx
    | some r =>
      have hopens := hsigned r.1 r.2 hr
      intro x v hx
      rw [levels_of_stop hr (operators_refuse_of_opens hopens)] at hx
      obtain ⟨-, rfl⟩ := Prod.mk.inj (Option.some.inj hx)
      exact hopens

/-- In parentheses, nothing but a closing one may follow what is read. -/
theorem RereadsInParentheses.of_levels {e : Expr} (h : (signedExpr inner s).parsed = some (e, t))
    (hstop : ∀ o ∈ operators, (o t).parsed = none) (hclose : NotNext ')' t) :
    RereadsInParentheses (level inner s).parsed none rest := by
  intro x v hx
  rw [level_eq, levels_of_stop h hstop] at hx
  obtain ⟨-, rfl⟩ := Prod.mk.inj (Option.some.inj hx)
  exact hclose

theorem RereadsInParentheses.of_refused (h : (signedExpr inner s).parsed = none) :
    RereadsInParentheses (level inner s).parsed none rest := by
  intro x v hx
  rw [level_eq, levels_of_refused h] at hx
  cases hx

theorem level_binary {op : Operator} {l r : Expr} (hl : ReadsOperand inner l)
    (hr : ReadsOperand inner r)
    (hs : skipBlanks s = l.canonical ++ between op (r.canonical ++ ')' :: rest)) :
    RereadsInParentheses (level inner s).parsed (rereadOperand (.binary op l r)) rest := by
  have hclose : Closes (')' :: rest) := closes_cons (by decide) rest
  have hskip : skipBlanks (')' :: rest) = ')' :: rest := skipBlanks_of_closes hclose
  have hleft := signedExpr_canonical hl hs (endsPath_between ..) (notNext_between _ _ (by decide))
  have hright := signedExpr_canonical (s := ' ' :: (r.canonical ++ ')' :: rest)) hr
    (by rw [skipBlanks_space, hr.begins_canonical.skipBlanks]) (endsPath_of_closes hclose)
    (notNext_of_ne hskip (by decide))
  rw [rereadOperand]
  unfold reread at hleft hright
  cases hreadl : rereadOperand l with
  | none =>
    rw [hreadl] at hleft
    cases h : (signedExpr inner s).parsed with
    | none => exact .of_refused h
    | some p =>
      have hopens := hleft p.1 p.2 h
      exact .of_levels h (operators_refuse_of_opens hopens) (hopens.notNext (by decide))
  | some l' =>
    rw [hreadl] at hleft
    cases hreadr : rereadOperand r with
    | none =>
      rw [hreadr] at hright
      cases h : (signedExpr inner (' ' :: (r.canonical ++ ')' :: rest))).parsed with
      | none =>
        intro x v hx
        rw [level_eq, levels_of_stuck hleft h] at hx
        obtain ⟨-, rfl⟩ := Prod.mk.inj (Option.some.inj hx)
        exact notNext_between _ _ (by decide)
      | some p =>
        have hopens := hright p.1 p.2 h
        intro x v hx
        rw [level_eq, levels_of_once hleft h (operators_refuse_of_opens hopens)] at hx
        obtain ⟨-, rfl⟩ := Prod.mk.inj (Option.some.inj hx)
        exact hopens.notNext (by decide)
    | some r' =>
      rw [hreadr] at hright
      exact levels_of_once hleft hright (operators_refuse_of_closes hclose)

theorem pathExpr_of_sign (hs : skipBlanks s = '-' :: '(' :: t) :
    (pathExpr inner s).parsed = none := by
  have hprimary := primary_of_mark inner hs (by decide) (by decide) (by decide)
  refine pathExpr_of_refused (notNext_of_ne hs (by decide)) hprimary (parsed_bind_of_none ?_)
  exact step_of_run ['-'] hs (by decide) (by decide) rfl (by decide) (by decide)

/-- Where the left operand of a union is not read, what is read ends at a bracket that opens. -/
theorem RereadsInParentheses.of_unread_left {l : Expr} {u : List Char}
    (hsigned : (signedExpr inner s).parsed =
      (unionExpr inner t).parsed.map fun r => (signed l r.1, r.2))
    (hleft : Rereads (pathExpr inner t).parsed none u) :
    RereadsInParentheses (level inner s).parsed none rest := by
  cases h : (pathExpr inner t).parsed with
  | none =>
    rw [unionExpr, parsed_bind_of_none h] at hsigned
    exact .of_refused hsigned
  | some p =>
    have hopens := hleft p.1 p.2 h
    rw [unionExpr_of_operands h (.stop (nextOperand_of_notNext (hopens.notNext (by decide))))]
      at hsigned
    exact .of_levels hsigned (operators_refuse_of_opens hopens) (hopens.notNext (by decide))

/-- Where nothing of a union but its left operand is read, its mark is left over. -/
theorem RereadsInParentheses.of_unread_right {l l' : Expr} {u v : List Char}
    (hsigned : (signedExpr inner s).parsed =
      (unionExpr inner t).parsed.map fun r => (signed l r.1, r.2))
    (hleft : (pathExpr inner t).parsed = some (l', u)) (hbar : skipBlanks u = '|' :: v)
    (hright : (pathExpr inner v).parsed = none) :
    RereadsInParentheses (level inner s).parsed none rest := by
  have hnext : (nextOperand inner u).parsed = none := (nextOperand_eq inner hbar).trans hright
  rw [unionExpr_of_operands hleft (.stop hnext)] at hsigned
  exact .of_levels hsigned (operators_refuse_of_mark hbar (by decide))
    (notNext_of_ne hbar (by decide))

/-- A left operand that was read, with what follows read as a right one. -/
theorem RereadsInParentheses.of_left {l l' : Expr} {u v : List Char} {right : Option Expr}
    (hsigned : (signedExpr inner s).parsed =
      (unionExpr inner t).parsed.map fun r => (signed l r.1, r.2))
    (hleft : (pathExpr inner t).parsed = some (l', u)) (hbar : skipBlanks u = '|' :: v)
    (hright : Rereads (pathExpr inner v).parsed right (')' :: rest)) :
    RereadsInParentheses (level inner s).parsed (right.map fun r => signed l (.union l' r))
      rest := by
  have hnext := nextOperand_eq inner hbar
  have hunion {r' : Expr} {w : List Char} (hr' : (pathExpr inner v).parsed = some (r', w))
      (hw : NotNext '|' w) :
      (signedExpr inner s).parsed = some (signed l (.union l' r'), w) := by
    rw [hsigned, unionExpr_of_operands hleft
      (.last (hnext.trans hr') (by rintro rfl; cases hbar) (nextOperand_of_notNext hw))]
    rfl
  cases right with
  | none =>
    cases h : (pathExpr inner v).parsed with
    | none => exact .of_unread_right hsigned hleft hbar h
    | some p =>
      have hopens := hright p.1 p.2 h
      exact .of_levels (hunion h (hopens.notNext (by decide)))
        (operators_refuse_of_opens hopens) (hopens.notNext (by decide))
  | some r' =>
    have hclose : Closes (')' :: rest) := closes_cons (by decide) rest
    have hend : NotNext '|' (')' :: rest) :=
      notNext_of_ne (skipBlanks_of_closes hclose) (by decide)
    exact levels_of_stop (hunion hright hend) (operators_refuse_of_closes hclose)

theorem level_union {l r : Expr} (hl : ReadsOperand inner l) (hr : ReadsOperand inner r)
    (hs : skipBlanks s = l.canonical ++ ' ' :: '|' :: ' ' :: (r.canonical ++ ')' :: rest)) :
    RereadsInParentheses (level inner s).parsed (rereadOperand (.union l r)) rest := by
  have hbar : skipBlanks (' ' :: '|' :: ' ' :: (r.canonical ++ ')' :: rest)) =
      '|' :: ' ' :: (r.canonical ++ ')' :: rest) := by
    rw [skipBlanks_space, skipBlanks_cons (by decide)]
  obtain ⟨t, ht, hsigned⟩ := signedExpr_eq hl hs
  have hleft := hl.reads t _ ht (endsPath_of_blank hbar (by decide))
  rw [rereadOperand]
  cases hreadl : rereadOperand l with
  | none =>
    rw [hreadl] at hleft
    simp only [Option.bind_eq_bind, Option.bind_none, ite_self]
    exact .of_unread_left hsigned hleft
  | some l' =>
    rw [hreadl] at hleft
    cases hneg : r.isNegation with
    | true =>
      -- a union takes paths, and none starts with the sign of its right operand
      refine .of_unread_right hsigned hleft hbar ?_
      cases r <;> first
        | exact pathExpr_of_sign (by rw [skipBlanks_space]; exact skipBlanks_cons (by decide) _)
        | cases hneg
    | false =>
      have hskip : skipBlanks (' ' :: (r.canonical ++ ')' :: rest)) =
          operandText r ++ ')' :: rest := by
        rw [skipBlanks_space, canonical_of_not_negation hneg, hr.begins.skipBlanks]
      have hright := hr.reads _ _ hskip (endsPath_of_closes (closes_cons (by decide) rest))
      have hread := RereadsInParentheses.of_left hsigned hleft hbar hright
      simp only [Bool.false_eq_true, if_false]
      cases hreadr : rereadOperand r <;> rw [hreadr] at hread <;> exact hread

/-! ## Parts are shorter and inside -/

theorem length_le_joined (sep : List Char) {piece : List Char} {pieces : List (List Char)} (h : piece ∈ pieces) :
    piece.length ≤ (joined sep pieces).length := by
  cases pieces with
  | nil => cases h
  | cons first pieces =>
    rw [joined_cons, List.length_append]
    rcases List.mem_cons.1 h with rfl | h
    · omega
    · have hmem : sep ++ piece ∈ pieces.map (sep ++ ·) := List.mem_map_of_mem h
      have := (List.sublist_flatten_of_mem hmem).length_le
      rw [List.length_append] at this
      omega

theorem canonicalList_eq_map (es : List Expr) : canonicalList es = es.map canonical := by
  induction es with
  | nil => rfl
  | cons e es ih => rw [canonicalList, ih, List.map_cons]

theorem canonicalSteps_eq_map (ss : List (Step Expr)) :
    canonicalSteps ss = ss.map canonicalStep := by
  induction ss with
  | nil => rfl
  | cons st ss ih => rw [canonicalSteps, ih, List.map_cons]

theorem length_le_predicates {e : Expr} {es : List Expr} (h : e ∈ es) :
    e.canonical.length ≤ (canonicalPredicates es).length := by
  induction es with
  | nil => cases h
  | cons first es ih =>
    simp only [canonicalPredicates, List.length_cons, List.length_append]
    rcases List.mem_cons.1 h with rfl | h
    · omega
    · have := ih h
      omega

theorem length_lt_step {e : Expr} {st : Step Expr} (h : e ∈ st.predicates) :
    e.canonical.length < (canonicalStep st).length := by
  obtain ⟨axis, test, predicates⟩ := st
  have : e.canonical.length ≤ (canonicalPredicates predicates).length := length_le_predicates h
  simp only [canonicalStep, List.length_append, List.length_cons]
  omega

theorem length_le_steps {st : Step Expr} {ss : List (Step Expr)} (h : st ∈ ss) :
    (canonicalStep st).length ≤ (joined ['/'] (canonicalSteps ss)).length :=
  length_le_joined _ (by rw [canonicalSteps_eq_map]; exact List.mem_map_of_mem h)

theorem parts_subset_all {e : Expr} {es : List Expr} (h : e ∈ es) : e.parts ⊆ partsOfAll es := by
  induction es with
  | nil => cases h
  | cons first es ih =>
    intro p hp
    rw [partsOfAll, List.mem_append]
    rcases List.mem_cons.1 h with rfl | h
    · exact .inl hp
    · exact .inr (ih h hp)

theorem parts_subset_steps {e : Expr} {st : Step Expr} {ss : List (Step Expr)} (hst : st ∈ ss)
    (h : e ∈ st.predicates) : e.parts ⊆ partsOfSteps ss := by
  induction ss with
  | nil => cases hst
  | cons first ss ih =>
    intro p hp
    rw [partsOfSteps, List.mem_append]
    rcases List.mem_cons.1 hst with rfl | hst
    · obtain ⟨axis, test, predicates⟩ := st
      exact .inl (parts_subset_all h hp)
    · exact .inr (ih hst hp)

/-! ## Expressions -/

/-- A proper expression whose finite literals are written as decimals that read back. -/
def Written (e : Expr) : Prop :=
  e.Proper ∧ ∀ x : Float, .number x ∈ e.parts → x.isFinite = true →
    Number.unsigned? (Number.text x).toList = some x

theorem Written.of_subset {e p : Expr} (h : e.Written) (hp : p.Proper) (hsub : p.parts ⊆ e.parts) :
    p.Written :=
  ⟨hp, fun x hx => h.2 x (hsub hx)⟩

theorem ReadsOperand.of_head {e : Expr} {c : Char} (hs : operandText e = c :: t)
    (hc : Number.isPadding c = false) (hne : c ∉ [')', '-'])
    (reads : ∀ s rest, skipBlanks s = operandText e ++ rest → EndsPath rest →
      Rereads (pathExpr inner s).parsed (rereadOperand e) rest) : ReadsOperand inner e := by
  simp only [List.mem_cons, List.not_mem_nil, or_false, not_or] at hne
  exact ⟨⟨c, t, hs, hc, hne.1⟩, by simp [hs, hne.2], reads⟩

theorem ReadsOperand.of_name {e : Expr} {n v : List Char} (hs : operandText e = n ++ v)
    (hn : IsQualifiedName n)
    (reads : ∀ s rest, skipBlanks s = operandText e ++ rest → EndsPath rest →
      Rereads (pathExpr inner s).parsed (rereadOperand e) rest) : ReadsOperand inner e := by
  have hbegins := hn.begins.append v
  obtain ⟨p, q, hpq, ⟨c, cs, rfl, hc, -⟩, -⟩ := hn.simple_prefix
  rw [← hs] at hbegins
  refine ⟨hbegins, ?_, reads⟩
  rw [hs, hpq]
  intro h
  obtain rfl : c = '-' := by simpa using h
  exact absurd hc (by decide)

theorem expr_of_closing (n : Nat) : (expr n (')' :: rest)).parsed = none := by
  have hs : skipBlanks (')' :: rest) = ')' :: rest := skipBlanks_cons (by decide) rest
  cases n with
  | zero => rfl
  | succ n =>
    have hprimary := primary_of_mark (expr n) hs (by decide) (by decide) (by decide)
    have hpath := pathExpr_of_refused (notNext_of_ne hs (by decide)) hprimary
      (relativePath_of_parenthesis hs (by decide))
    have hsigns : (many signRule (')' :: rest)).parsed = some ([], ')' :: rest) :=
      many_of_none (signRule_of_notNext (notNext_of_ne hs (by decide)))
    rw [expr, level_eq]
    exact levels_of_refused ((parsed_bind_of_some hsigns).trans
      (parsed_bind_of_none (parsed_bind_of_none hpath)))

/-! ### One lemma for each kind of expression -/

variable {n : Nat}

theorem readsOperand_text {v : String} (hv : (Expr.text v).Proper) :
    ReadsOperand inner (.text v) := by
  obtain ⟨mark, hquote, hmark⟩ := quote_eq v
  have hne : Number.isPadding mark = false ∧ mark ∉ [')', '-'] ∧ mark ≠ '/' := by
    rcases hmark with ⟨rfl, -⟩ | ⟨rfl, -⟩ <;> decide
  refine .of_head hquote hne.1 hne.2.1 fun s rest hs hrest => ?_
  have hs : skipBlanks s = Expr.quote v ++ rest := hs
  have hslash : NotNext '/' s := notNext_of_ne (by rw [hs, hquote]; rfl) hne.2.2
  exact pathExpr_of_primary hslash (primary_text hv hs) hrest

theorem readsOperand_variable {name : String} (hname : IsQualifiedName name.toList) :
    ReadsOperand inner (.variable name) := by
  refine .of_head rfl (by decide) (by decide) fun s rest hs hrest => ?_
  exact pathExpr_of_primary (notNext_of_ne hs (by decide))
    (primary_variable hname hs hrest.toEndsStep) hrest

theorem readsOperand_number {x : Float} (hx : (Expr.number x).Written) (n : Nat) :
    ReadsOperand (expr n) (.number x) := by
  obtain ⟨⟨whole, fraction, rfl⟩, hdecimal⟩ := hx
  cases hinf : (Number.ofDigits whole fraction).isInf with
  | false =>
    have hread := hdecimal _ (by simp [parts]) (Number.isFinite_ofDigits hinf)
    obtain ⟨d, ds, hds, hd⟩ := unsigned?_head hread
    have hhead : Number.isPadding d = false ∧ d ∉ [')', '-'] := by
      rcases hd with hd | rfl
      · refine ⟨?_, ?_⟩
        · cases hpadding : Number.isPadding d with
          | false => rfl
          | true =>
            simp only [Number.isPadding, Bool.or_eq_true, decide_eq_true_eq] at hpadding
            rcases hpadding with ((rfl | rfl) | rfl) | rfl <;> exact absurd hd (by decide)
        · simp only [List.mem_cons, List.not_mem_nil, or_false]
          rintro (rfl | rfl) <;> exact absurd hd (by decide)
      · decide
    refine .of_head (c := d) (t := ds) hds hhead.1 hhead.2 fun s rest hs hrest => ?_
    have hslash : NotNext '/' s := by
      have hs : skipBlanks s = d :: (ds ++ rest) := by
        rw [hs]
        exact congrArg (· ++ rest) hds
      refine notNext_of_ne hs ?_
      rcases hd with hd | rfl
      · rintro rfl
        exact absurd hd (by decide)
      · decide
    rw [rereadOperand, rereadNumber, hinf]
    exact pathExpr_of_primary hslash (primary_number hread hs hrest.name) hrest
  | true =>
    have htext := Number.text_of_isInf hinf
    have hname : IsQualifiedName "Infinity".toList :=
      .inl (simpleName_sound (s := "Infinity".toList) (t := []) (by decide)).1
    have hcanonical : operandText (.number (Number.ofDigits whole fraction)) =
        "Infinity".toList ++ [] := by
      rw [List.append_nil, ← htext]
      rfl
    refine .of_name hcanonical hname fun s rest hs hrest => ?_
    rw [hcanonical, List.append_nil] at hs
    rw [rereadOperand, rereadNumber, hinf]
    exact pathExpr_name hname hs hrest

/-- The shorter expressions inside `e` are read one level deeper. -/
def ShorterRead (n : Nat) (e : Expr) : Prop :=
  ∀ p : Expr, p.Proper → p.parts ⊆ e.parts → p.canonical.length < e.canonical.length →
    ∃ m, n = m + 1 ∧ ReadsOperand (expr m) p

theorem ShorterRead.inside {e p : Expr} (h : ShorterRead n e) (hp : p.Proper)
    (hsub : p.parts ⊆ e.parts) (hlt : p.canonical.length < e.canonical.length) :
    ReadsInside (expr n) p := by
  obtain ⟨m, rfl, hread⟩ := h p hp hsub hlt
  exact level_canonical hread

theorem ShorterRead.both {e l r : Expr} (h : ShorterRead n e) (hl : l.Proper) (hr : r.Proper)
    (hsub : l.parts ++ r.parts ⊆ e.parts)
    (hlt : l.canonical.length + r.canonical.length < e.canonical.length) :
    ∃ m, n = m + 1 ∧ ReadsOperand (expr m) l ∧ ReadsOperand (expr m) r := by
  obtain ⟨m, rfl, hl⟩ := h l hl (fun q hq => hsub (List.mem_append_left _ hq)) (by omega)
  obtain ⟨m', hm, hr⟩ := h r hr (fun q hq => hsub (List.mem_append_right _ hq)) (by omega)
  obtain rfl : m = m' := by omega
  exact ⟨m, rfl, hl, hr⟩

theorem readsOperand_call {f : String} {args : List Expr} (hcall : (Expr.call f args).Proper)
    (h : ShorterRead n (.call f args)) : ReadsOperand (expr n) (.call f args) := by
  obtain ⟨hf, hlookup, hargs⟩ := hcall
  have htext : operandText (.call f args) =
      f.toList ++ ('(' :: joined [',', ' '] (canonicalList args) ++ [')']) := by
    simp [operandText, canonical]
  refine .of_name htext hf fun s rest hs hrest => ?_
  refine pathExpr_call hf hlookup (fun p hp => ?_) (expr_of_closing n) hs hrest
  refine h.inside (allProper_iff.1 hargs p hp) ?_ ?_
  · exact fun q hq => List.mem_cons_of_mem _ (parts_subset_all hp hq)
  · have := length_le_joined [',', ' ']
      (canonicalList_eq_map args ▸ List.mem_map_of_mem (f := canonical) hp)
    simp only [canonical, List.length_append, List.length_cons]
    omega

theorem readsOperand_negate {e : Expr} (he : e.Proper) (h : ShorterRead n (.negate e)) :
    ReadsOperand (expr n) (.negate e) := by
  have hinside := h.inside he (fun q hq => List.mem_cons_of_mem _ hq)
    (by simp only [canonical, List.length_append, List.length_cons]; omega)
  refine .of_head rfl (by decide) (by decide) fun s rest hs hrest => ?_
  have hs : skipBlanks s = '(' :: (e.canonical ++ ')' :: rest) := by
    rw [hs]
    simp [operandText]
  exact pathExpr_parentheses hs (Rereads.inParentheses (hinside.reads _ _
    (hinside.begins.skipBlanks _) (closes_cons (by decide) rest))) hrest

theorem readsOperand_binary {op : Operator} {l r : Expr} (hl : l.Proper) (hr : r.Proper)
    (h : ShorterRead n (.binary op l r)) : ReadsOperand (expr n) (.binary op l r) := by
  obtain ⟨m, rfl, hl, hr⟩ := h.both hl hr (fun q hq => List.mem_cons_of_mem _ hq)
    (by simp only [canonical, List.length_append, List.length_cons]; omega)
  refine .of_head rfl (by decide) (by decide) fun s rest hs hrest => ?_
  have hs : skipBlanks s =
      '(' :: (l.canonical ++ between op (r.canonical ++ ')' :: rest)) := by
    rw [hs]
    simp [operandText, canonical, between]
  exact pathExpr_parentheses hs (level_binary hl hr (hl.begins_canonical.skipBlanks _)) hrest

theorem readsOperand_union {l r : Expr} (hl : l.Proper) (hr : r.Proper)
    (h : ShorterRead n (.union l r)) : ReadsOperand (expr n) (.union l r) := by
  obtain ⟨m, rfl, hl, hr⟩ := h.both hl hr (fun q hq => List.mem_cons_of_mem _ hq)
    (by simp only [canonical, List.length_append, List.length_cons]; omega)
  refine .of_head rfl (by decide) (by decide) fun s rest hs hrest => ?_
  have hs : skipBlanks s =
      '(' :: (l.canonical ++ ' ' :: '|' :: ' ' :: (r.canonical ++ ')' :: rest)) := by
    rw [hs]
    simp [operandText, canonical]
  exact pathExpr_parentheses hs (level_union hl hr (hl.begins_canonical.skipBlanks _)) hrest

theorem readsOperand_filter {base : Expr} {predicates : List Expr}
    (hfilter : (Expr.filter base predicates).Proper)
    (h : ShorterRead n (.filter base predicates)) :
    ReadsOperand (expr n) (.filter base predicates) := by
  obtain ⟨hbase, hne, hpredicates⟩ := hfilter
  refine .of_head rfl (by decide) (by decide) fun s rest hs hrest => ?_
  refine pathExpr_filter (h.inside hbase ?_ ?_) (fun p hp => h.inside
    (allProper_iff.1 hpredicates p hp) ?_ ?_) hne hs hrest
  · exact fun q hq => by simp [parts, hq]
  · simp only [canonical, List.length_append, List.length_cons]
    omega
  · exact fun q hq => by simp [parts, parts_subset_all hp hq]
  · have := length_le_predicates hp
    simp only [canonical, List.length_append, List.length_cons]
    omega

/-- Steps are read when the predicates in them are. -/
theorem readsStep_of_shorter {start : Start Expr} {steps : List (Step Expr)}
    (hsteps : ProperSteps steps) (h : ShorterRead n (.path start steps))
    (hlen : (joined ['/'] (canonicalSteps steps)).length ≤
      (Expr.path start steps).canonical.length) :
    ∀ st ∈ steps, ReadsStep (expr n) st := by
  intro st hst
  have hproper := properSteps_iff.1 hsteps st hst
  obtain ⟨axis, test, predicates⟩ := st
  refine ⟨hproper.1, fun e he => h.inside (allProper_iff.1 hproper.2 e he) ?_ ?_⟩
  · exact fun q hq => by simp [parts, parts_subset_steps hst he hq]
  · have := length_lt_step he
    have := length_le_steps hst
    omega

theorem readsOperand_root (n : Nat) (hn : (Expr.path .root []).canonical.length ≤ n) :
    ReadsOperand (expr n) (.path .root []) := by
  obtain ⟨m, rfl⟩ := Nat.exists_eq_succ_of_ne_zero
    (by simp [canonical, canonicalSteps, joined, canonicalStart] at hn; omega : n ≠ 0)
  refine .of_head rfl (by decide) (by decide) fun s rest hs hrest => ?_
  have hclose : Closes (')' :: rest) := closes_cons (by decide) rest
  have hskip : skipBlanks ('/' :: ')' :: rest) = '/' :: ')' :: rest := skipBlanks_cons (by decide) _
  have hlevel : (level (expr m) ('/' :: ')' :: rest)).parsed = some (.path .root [], ')' :: rest) :=
    level_of_pathExpr (notNext_of_ne hskip (by decide)) (pathExpr_slash hskip) hclose
  exact pathExpr_parentheses (t := '/' :: ')' :: rest) hs hlevel hrest

theorem canonicalSteps_cons (st : Step Expr) (ss : List (Step Expr)) :
    ∃ c t, joined ['/'] (canonicalSteps (st :: ss)) = c :: t ∧ isNameStart c := by
  obtain ⟨c, t, hstep, hc⟩ := canonicalStep_cons st
  refine ⟨c, t ++ furtherSteps ss, ?_, hc⟩
  rw [joined_canonicalSteps, hstep]
  rfl

theorem readsOperand_rooted {st : Step Expr} {ss : List (Step Expr)}
    (hsteps : ProperSteps (st :: ss)) (h : ShorterRead n (.path .root (st :: ss))) :
    ReadsOperand (expr n) (.path .root (st :: ss)) := by
  obtain ⟨c, t, hjoined, _⟩ := canonicalSteps_cons st ss
  have htext : operandText (.path .root (st :: ss)) = '/' :: c :: t := by
    rw [operandText, canonical, hjoined]
    · rfl
    · simp
  have hread := readsStep_of_shorter hsteps h (by
    rw [canonical, hjoined, canonicalStart]
    simp only [List.length_cons]
    omega)
  exact .of_head htext (by decide) (by decide) fun s rest hs hrest => pathExpr_root hread hs hrest

theorem readsOperand_relative {st : Step Expr} {ss : List (Step Expr)}
    (hsteps : ProperSteps (st :: ss)) (h : ShorterRead n (.path .context (st :: ss))) :
    ReadsOperand (expr n) (.path .context (st :: ss)) := by
  obtain ⟨c, t, hjoined, hc⟩ := canonicalSteps_cons st ss
  have hread := readsStep_of_shorter hsteps h (Nat.le_of_eq rfl)
  refine ⟨?_, ?_, fun s rest hs hrest => pathExpr_context hread hs hrest⟩
  · change Begins (joined ['/'] (canonicalSteps (st :: ss)))
    rw [hjoined]
    exact begins_of_isNameStart hc _
  · change (joined ['/'] (canonicalSteps (st :: ss))).head? ≠ some '-'
    rw [hjoined]
    intro heq
    obtain rfl : c = '-' := by simpa using heq
    exact absurd hc (by decide)

theorem readsOperand_behind {base : Expr} {st : Step Expr} {ss : List (Step Expr)}
    (hbase : base.Proper) (hsteps : ProperSteps (st :: ss))
    (h : ShorterRead n (.path (.nodes base) (st :: ss))) :
    ReadsOperand (expr n) (.path (.nodes base) (st :: ss)) := by
  obtain ⟨c, t, hjoined, _⟩ := canonicalSteps_cons st ss
  have htext : (Expr.path (.nodes base) (st :: ss)).canonical =
      '(' :: (base.canonical ++ ')' :: '/' :: joined ['/'] (canonicalSteps (st :: ss))) := by
    rw [canonical, hjoined, canonicalStart]
    simp
  have hread := readsStep_of_shorter hsteps h (by
    rw [htext]
    simp only [List.length_cons, List.length_append]
    omega)
  refine .of_head htext (by decide) (by decide) fun s rest hs hrest =>
    pathExpr_nodes (h.inside hbase ?_ ?_) hread hs hrest
  · exact fun q hq => by simp [parts, partsOfStart, hq]
  · rw [htext]
    simp only [List.length_cons, List.length_append]
    omega

theorem readsOperand_path {start : Start Expr} {steps : List (Step Expr)}
    (hpath : (Expr.path start steps).Proper) (h : ShorterRead n (.path start steps))
    (hn : (Expr.path start steps).canonical.length ≤ n) :
    ReadsOperand (expr n) (.path start steps) := by
  obtain ⟨hstart, hsteps⟩ := hpath
  cases steps with
  | nil =>
    cases start with
    | root => exact readsOperand_root n hn
    | context => cases hstart
    | nodes base => cases hstart.1
  | cons st ss =>
    cases start with
    | root => exact readsOperand_rooted hsteps h
    | context => exact readsOperand_relative hsteps h
    | nodes base => exact readsOperand_behind hstart.2 hsteps h

/-- The canonical text of `e` is read by a rule for brackets as deep as the text is long. -/
theorem operand_canonical (n : Nat) :
    ∀ e : Expr, e.Written → e.canonical.length ≤ n → ReadsOperand (expr n) e := by
  induction n using Nat.strongRecOn with
  | ind n ih =>
    intro e he hn
    have h : ShorterRead n e := by
      intro p hp hsub hlt
      obtain ⟨m, rfl⟩ := Nat.exists_eq_succ_of_ne_zero (by omega : n ≠ 0)
      exact ⟨m, rfl, ih m (by omega) p (he.of_subset hp hsub) (by omega)⟩
    have hproper := he.1
    cases e with
    | text v => exact readsOperand_text hproper
    | number x => exact readsOperand_number he n
    | «variable» name => exact readsOperand_variable hproper
    | call f args => exact readsOperand_call hproper h
    | binary op l r => exact readsOperand_binary hproper.1 hproper.2 h
    | negate e => exact readsOperand_negate hproper h
    | union l r => exact readsOperand_union hproper.1 hproper.2 h
    | filter base predicates => exact readsOperand_filter hproper h
    | path start steps => exact readsOperand_path hproper h hn

/-! ## Whole texts -/

theorem toOption_read (text : String) :
    (read text).toOption = (whole text.toList).parsed.map Prod.fst := by
  unfold read
  rcases whole text.toList with ⟨_ | ⟨e, t⟩, stuck⟩ <;> rfl

theorem read_eq_ok_iff {text : String} {e : Expr} :
    read text = .ok e ↔ (whole text.toList).parsed.map Prod.fst = some e := by
  rw [← toOption_read]
  cases read text <;> simp [Except.toOption]

/-- Canonical text is read as `reread` says, and refused where that is nothing. -/
theorem read_toText {e : Expr} (he : e.Written) : (read e.toText).toOption = reread e := by
  have hinside : ReadsInside (expr (e.canonical.length + 1)) e :=
    level_canonical (operand_canonical _ e he (Nat.le_refl _))
  have hread := hinside.reads e.canonical [] (by
    have := hinside.begins.skipBlanks []
    simpa using this) (.inl rfl)
  have hparsed : (whole e.canonical).parsed = (reread e).map (·, []) := by
    cases h : reread e with
    | some a =>
      rw [h] at hread
      exact (parsed_bind_of_some hread).trans (parsed_bind_of_some (p := token endOfText) rfl)
    | none =>
      rw [h] at hread
      cases hr : (expr (e.canonical.length + 1) e.canonical).parsed with
      | none => exact parsed_bind_of_none hr
      | some r =>
        refine (parsed_bind_of_some hr).trans (parsed_bind_of_none ?_)
        have hopens := hread r.1 r.2 hr
        rw [parsed_token, hopens.skipBlanks_eq]
        obtain ⟨u, hu | hu⟩ := hopens <;> rw [hu] <;> rfl
  have hchars : e.toText.toList = e.canonical := String.toList_ofList
  rw [toOption_read, hchars, hparsed]
  cases reread e <;> rfl

/-- Written down and read again, an expression that was read comes back as itself exactly when
none of its literals is infinite and none of its unions has a negation as an operand. The decimals
of its finite literals are assumed to read back. -/
theorem read_toText_iff {text : String} {e : Expr} (h : read text = .ok e)
    (hdecimals : ∀ x : Float, .number x ∈ e.parts → x.isFinite = true →
      Number.unsigned? (Number.text x).toList = some x) :
    read e.toText = .ok e ↔ e.Stable := by
  have hread := read_toText ⟨proper_of_read h, hdecimals⟩
  rw [← reread_eq_self_iff, ← hread]
  cases read e.toText with
  | error err => simp [Except.toOption]
  | ok a => simp [Except.toOption]

/-- The sign in front of a union is read as a sign of the whole union. -/
theorem read_toText_signed_union :
    let e := negate (.union (.number (Number.ofDigits ['1'] [])) (.path .context
      [⟨.child, .name "b", []⟩]))
    read "-1|b" = .ok e ∧ (read e.toText = .ok e ↔ e.Stable) := by
  refine ⟨rfl, @read_toText_iff "-1|b" _ rfl ?_⟩
  intro x hx _
  obtain rfl : x = Number.ofDigits ['1'] [] := by
    simpa [parts, partsOfStart, partsOfSteps, partsOfStep, partsOfAll] using hx
  decide +kernel

end ReactiveForm.Expr
