import ReactiveForm.Proofs.Expr.Path
import ReactiveForm.Proofs.Number.Decimal

/-!
# Reading canonical operands

One lemma for each kind of operand: what its canonical text is read as when all that stands inside
it is read as it should.
-/

set_option autoImplicit false

namespace ReactiveForm.Expr

open Rule

variable {s t u rest : List Char} {inner : Rule Expr} {c : Char}

/-! ## Operands refused by their first character -/

theorem absolutePath_of_notNext (h : NotNext '/' s) : (absolutePath inner s).parsed = none := by
  have hword : Scan.word ['/', '/'] (skipBlanks s) = none :=
    word_refuses fun c hc heq => h (by rw [← heq]; exact hc)
  simp [absolutePath, h.char, hword]

theorem variableReference_of_notNext (h : NotNext '$' s) :
    (variableReference s).parsed = none := by
  refine (parsed_named _ s).trans (parsed_bind_of_none ?_)
  rw [parsed_exactly, h.char]

theorem quoted_of_notNext (h : NotNext c s) : quoted c (skipBlanks s) = none := by
  unfold NotNext at h
  unfold quoted
  split
  · rfl
  · next d u heq =>
    rw [heq] at h
    exact if_neg fun hd => h (by rw [hd]; rfl)

theorem stringLiteral_of_notNext (hdouble : NotNext '"' s) (hsingle : NotNext '\'' s) :
    (stringLiteral s).parsed = none := by
  refine parsed_bind_of_none ?_
  rw [parsed_token, Scan.orElse, quoted_of_notNext hdouble, quoted_of_notNext hsingle]
  rfl

theorem numberLiteral_of_noneInFront (h : NoneInFront Char.isDigit (skipBlanks s))
    (hdot : NotNext '.' s) : (numberLiteral s).parsed = none := by
  refine parsed_bind_of_none ?_
  rw [parsed_token, numeral]
  dsimp only
  rw [h.takeWhile, h.dropWhile]
  split
  · next t heq => exact absurd (by rw [heq]; rfl) hdot
  · rfl

theorem functionCall_of_unopened {name : String} (hname : qualifiedName (skipBlanks s) = some (name, t))
    (h : NotNext '(' t) : (functionCall inner s).parsed = none := by
  rw [parsed_functionCall]
  split
  · rfl
  · refine (parsed_bind_of_some (a := name) (t := t) ?_).trans (parsed_bind_of_none h.mark)
    rw [parsed_token, skipBlanks_skipBlanks, hname]

theorem functionCall_of_noneInFront (h : NoneInFront isNameStart (skipBlanks s)) :
    (functionCall inner s).parsed = none := by
  rw [parsed_functionCall]
  split
  · rfl
  · refine parsed_bind_of_none ?_
    rw [parsed_token, skipBlanks_skipBlanks, qualifiedName_of_not_start h]

/-- No step starts with a mark that no name holds, points and wildcards apart. -/
theorem step_of_run (run : List Char) (hs : skipBlanks s = c :: t) (hc : isNameStart c = false)
    (hmark : c ∉ ['.', '@', '*']) (hrun : (c :: t).takeWhile isNameChar = run)
    (haxis : Axis.ofName? (String.ofList run) = none)
    (htype : nodeTypes.lookup (String.ofList run) = none) : (step inner s).parsed = none := by
  simp only [List.mem_cons, List.not_mem_nil, or_false, not_or] at hmark
  have hdots : (shortStep s).parsed = none := by
    simp [shortStep, hs, Scan.word, Scan.char, hmark.1]
  have hnoAxis : (axisOf s).parsed = none := by
    have hname : (token axisName s).parsed = none := by
      rw [parsed_token, hs, axisName, hrun, haxis]
      rfl
    have hat : (atSign s).parsed = none := by
      simp [atSign, hs, Scan.char, hmark.2.1]
    rw [axisOf, parsed_orElse, namedAxis, parsed_bind_of_none hname, hat]
    rfl
  have hnode : (nodeTest s).parsed = none := by
    have hkind : (kindTest s).parsed = none := by
      refine parsed_bind_of_none ?_
      rw [parsed_token, hs, nodeType, hrun, htype]
      rfl
    have hsimple : simpleName (c :: t) = none := simpleName_of_not_start (noneInFront_cons hc t)
    rw [nodeTest, parsed_orElse, hkind, parsed_token, hs, Option.none_or]
    unfold nameTest
    split
    · next heq => exact absurd (List.cons.inj heq).1 hmark.2.2
    · rw [hsimple, qualifiedName_of_not_start (noneInFront_cons hc t)]
      rfl
  rw [step, parsed_orElse, hdots, Option.none_or]
  exact (parsed_bind_of_some (optional_of_none hnoAxis)).trans (parsed_bind_of_none hnode)

theorem relativePath_of_parenthesis (hs : skipBlanks s = c :: t) (hc : c ∈ ['(', ')']) :
    (relativePath inner s).parsed = none := by
  have hmark : isNameChar c = false ∧ c ∉ ['.', '@', '*'] := by
    simp only [List.mem_cons, List.not_mem_nil, or_false] at hc
    rcases hc with rfl | rfl <;> decide
  refine parsed_bind_of_none (step_of_run [] hs (not_isNameStart hmark.1) hmark.2 ?_
    (by decide) (by decide))
  rw [List.takeWhile_cons_of_neg (by simp [hmark.1])]

/-- A mark that starts no primary expression. -/
theorem primary_of_mark (inner : Rule Expr) (hs : skipBlanks s = c :: t) (hstart : isNameStart c = false)
    (hdigit : c.isDigit = false) (hc : c ∉ ['$', '(', '"', '\'', '.']) :
    (primary inner s).parsed = none := by
  have hne : ∀ d ∈ ['$', '(', '"', '\'', '.'], NotNext d s := by
    intro d hd
    refine notNext_of_ne hs ?_
    rintro rfl
    exact hc hd
  have hnumber : (numberLiteral s).parsed = none := by
    refine numberLiteral_of_noneInFront ?_ (hne _ (by decide))
    rw [hs]
    exact noneInFront_cons hdigit t
  have hcall : (functionCall inner s).parsed = none := by
    refine functionCall_of_noneInFront ?_
    rw [hs]
    exact noneInFront_cons hstart t
  rw [primary, parsed_orElse, variableReference_of_notNext (hne _ (by decide)), Option.none_or,
    parsed_orElse, parenthesized_eq, enclosed_of_notNext (hne _ (by decide)), Option.none_or,
    parsed_orElse, stringLiteral_of_notNext (hne _ (by decide)) (hne _ (by decide)),
    Option.none_or, parsed_orElse, hnumber, Option.none_or, hcall]

/-! ## Paths around a primary expression -/

theorem filterPath_of_refused (h : (primary inner s).parsed = none) :
    (filterPath inner s).parsed = none :=
  parsed_bind_of_none h

/-- What goes on from a primary expression and its predicates. -/
def continuation (inner : Rule Expr) : Rule (List (Step Expr)) := do
  let between ← separator
  let steps ← relativePath inner
  pure (between ++ steps)

/-- The primary expression, or the filter that its predicates make of it. -/
def filtered (base : Expr) (predicates : List Expr) : Expr :=
  if predicates.isEmpty then base else .filter base predicates

theorem filterPath_of_base {base : Expr} {ps : List Expr}
    (h : (primary inner s).parsed = some (base, t)) (hps : Repeats (predicate inner) t ps u)
    (hslash : NotNext '/' u) : (filterPath inner s).parsed = some (filtered base ps, u) := by
  have hsteps : (Rule.optional (continuation inner) u).parsed = some (none, u) :=
    optional_of_none (parsed_bind_of_none (separator_of_notNext hslash))
  exact (parsed_bind_of_some h).trans <| (parsed_bind_of_some hps.many).trans <|
    parsed_bind_of_some hsteps

theorem filterPath_of_steps {base : Expr} {st : Step Expr} {steps : List (Step Expr)}
    (h : (primary inner s).parsed = some (base, '/' :: (canonicalStep st ++ u)))
    (hsteps : (relativePath inner (canonicalStep st ++ u)).parsed = some (steps, rest)) :
    (filterPath inner s).parsed = some (.path (.nodes base) steps, rest) := by
  have hskip : skipBlanks ('/' :: (canonicalStep st ++ u)) = '/' :: (canonicalStep st ++ u) :=
    skipBlanks_cons (by decide) _
  have hps : Repeats (predicate inner) ('/' :: (canonicalStep st ++ u)) [] _ :=
    .stop (enclosed_of_notNext (notNext_of_ne hskip (by decide)))
  have hcontinue : (continuation inner ('/' :: (canonicalStep st ++ u))).parsed =
      some (steps, rest) :=
    (parsed_bind_of_some (separator_step st hskip)).trans (parsed_bind_of_some hsteps)
  exact (parsed_bind_of_some h).trans <| (parsed_bind_of_some hps.many).trans <|
    parsed_bind_of_some (optional_of_some hcontinue)

theorem pathExpr_of_primary {e : Expr} (hslash : NotNext '/' s)
    (h : (primary inner s).parsed = some (e, t)) (ht : EndsPath t) :
    (pathExpr inner s).parsed = some (e, t) := by
  have hps : Repeats (predicate inner) t [] t := .stop (enclosed_of_notNext ht.bracket)
  rw [pathExpr, parsed_orElse, absolutePath_of_notNext hslash, Option.none_or, parsed_orElse,
    filterPath_of_base h hps ht.slash]
  rfl

theorem pathExpr_of_context {steps : List (Step Expr)} (hslash : NotNext '/' s)
    (h : (primary inner s).parsed = none) (hsteps : (relativePath inner s).parsed = some (steps, t)) :
    (pathExpr inner s).parsed = some (.path .context steps, t) := by
  rw [pathExpr, parsed_orElse, absolutePath_of_notNext hslash, Option.none_or, parsed_orElse,
    filterPath_of_refused h, Option.none_or]
  exact parsed_bind_of_some hsteps

theorem pathExpr_of_refused (hslash : NotNext '/' s) (h : (primary inner s).parsed = none)
    (hsteps : (relativePath inner s).parsed = none) : (pathExpr inner s).parsed = none := by
  rw [pathExpr, parsed_orElse, absolutePath_of_notNext hslash, Option.none_or, parsed_orElse,
    filterPath_of_refused h, Option.none_or]
  exact parsed_bind_of_none hsteps

/-! ## Literals and variables -/

theorem quoted_append {v : List Char} (hv : c ∉ v) :
    quoted c (c :: (v ++ c :: rest)) = some (String.ofList v, rest) := by
  have hall := forall_bne_of_not_mem hv
  have hstop : NoneInFront (· != c) (c :: rest) := noneInFront_cons (by simp) rest
  simp only [quoted, if_true, takeWhile_append_rest hall hstop, dropWhile_append_rest hall hstop]

theorem quote_eq (v : String) :
    ∃ mark, Expr.quote v = mark :: (v.toList ++ [mark]) ∧
      (mark = '"' ∧ '\'' ∈ v.toList ∨ mark = '\'' ∧ '\'' ∉ v.toList) := by
  by_cases h : '\'' ∈ v.toList
  · exact ⟨'"', by simp [Expr.quote, h], .inl ⟨rfl, h⟩⟩
  · exact ⟨'\'', by simp [Expr.quote, h], .inr ⟨rfl, h⟩⟩

theorem primary_text {v : String} (hv : (Expr.text v).Proper)
    (hs : skipBlanks s = Expr.quote v ++ rest) :
    (primary inner s).parsed = some (.text v, rest) := by
  have hv : '\'' ∈ v.toList → '"' ∉ v.toList := by simpa only [Proper] using hv
  obtain ⟨mark, hquote, hmark⟩ := quote_eq v
  have hs : skipBlanks s = mark :: (v.toList ++ mark :: rest) := by
    rw [hs, hquote]
    simp
  have hliteral : (stringLiteral s).parsed = some (.text v, rest) := by
    refine parsed_bind_of_some (a := v) (t := rest) ?_
    rw [parsed_token, hs, Scan.orElse]
    rcases hmark with ⟨rfl, hmem⟩ | ⟨rfl, hmem⟩
    · rw [quoted_append (hv hmem), String.ofList_toList, Option.some_or]
    · have hdouble : quoted '"' ('\'' :: (v.toList ++ '\'' :: rest)) = none := by
        simp [quoted]
      rw [hdouble, quoted_append hmem, String.ofList_toList, Option.none_or]
  have hne : mark ≠ '$' ∧ mark ≠ '(' := by
    rcases hmark with ⟨rfl, -⟩ | ⟨rfl, -⟩ <;> decide
  rw [primary, parsed_orElse, variableReference_of_notNext (notNext_of_ne hs hne.1), Option.none_or,
    parsed_orElse, parenthesized_eq, enclosed_of_notNext (notNext_of_ne hs hne.2), Option.none_or,
    parsed_orElse, hliteral, Option.some_or]

/-- A decimal is read as far as it goes. -/
theorem numeral_append {x : Float} {cs : List Char} (h : Number.unsigned? cs = some x)
    (hrest : NoneInFront isNameChar rest) : numeral (cs ++ rest) = some (x, rest) := by
  have hdigit : NoneInFront Char.isDigit rest := by
    intro c hc
    have := hrest c hc
    simp only [isNameChar, Bool.or_eq_false_iff] at this
    exact this.1.1.2
  have hdot : ∀ u, rest ≠ '.' :: u := by
    rintro u rfl
    exact absurd (hrest '.' rfl) (by decide)
  have hwhole : ∀ d ∈ cs.takeWhile Char.isDigit, d.isDigit = true :=
    List.all_eq_true.1 List.all_takeWhile
  have hsplit : cs.takeWhile Char.isDigit ++ cs.dropWhile Char.isDigit = cs :=
    List.takeWhile_append_dropWhile
  unfold Number.unsigned? at h
  dsimp only at h
  split at h
  · next hdrop =>
    rw [hdrop, List.append_nil] at hsplit
    rw [hsplit] at h hwhole
    simp only [numeral, takeWhile_append_rest hwhole hdigit, dropWhile_append_rest hwhole hdigit]
    split
    · next hempty =>
      rw [if_pos hempty] at h
      cases h
    · next hempty =>
      rw [if_neg hempty] at h
      cases h
      rfl
  · next fraction hdrop =>
    rw [hdrop] at hsplit
    split at h
    · next hall =>
      simp only [Bool.and_eq_true, Bool.not_eq_true'] at hall
      have hfraction := List.all_eq_true.1 hall.1
      have hstop : NoneInFront Char.isDigit ('.' :: (fraction ++ rest)) :=
        noneInFront_cons (by decide) _
      rw [← hsplit, List.append_assoc, List.cons_append]
      simp only [numeral, takeWhile_append_rest hwhole hstop, dropWhile_append_rest hwhole hstop,
        takeWhile_append_rest hfraction hdigit, dropWhile_append_rest hfraction hdigit, hall.2]
      cases h
      rfl
    · cases h
  · cases h

/-- A decimal starts with a digit or a point. -/
theorem unsigned?_head {x : Float} {cs : List Char} (h : Number.unsigned? cs = some x) :
    ∃ d ds, cs = d :: ds ∧ (d.isDigit = true ∨ d = '.') := by
  cases cs with
  | nil => simp [Number.unsigned?] at h
  | cons d ds =>
    refine ⟨d, ds, rfl, ?_⟩
    by_cases hd : d.isDigit = true
    · exact .inl hd
    · simp only [Number.unsigned?, List.dropWhile_cons_of_neg hd] at h
      split at h
      · next heq => cases heq
      · next heq => exact .inr (List.cons.inj heq).1
      · cases h

theorem primary_number {x : Float} {cs : List Char} (hx : Number.unsigned? cs = some x)
    (hs : skipBlanks s = cs ++ rest) (hrest : NoneInFront isNameChar rest) :
    (primary inner s).parsed = some (.number x, rest) := by
  obtain ⟨d, ds, hcs, hd⟩ := unsigned?_head hx
  have hliteral : (numberLiteral s).parsed = some (.number x, rest) := by
    refine parsed_bind_of_some (a := x) (t := rest) ?_
    rw [parsed_token, hs, numeral_append hx hrest]
  have hne : d ∉ ['$', '(', '"', '\''] := by
    intro hmem
    simp only [List.mem_cons, List.not_mem_nil, or_false] at hmem
    rcases hd with hd | rfl
    · rcases hmem with rfl | rfl | rfl | rfl <;> exact absurd hd (by decide)
    · rcases hmem with h | h | h | h <;> exact absurd h (by decide)
  simp only [List.mem_cons, List.not_mem_nil, or_false, not_or] at hne
  rw [hcs, List.cons_append] at hs
  rw [primary, parsed_orElse, variableReference_of_notNext (notNext_of_ne hs hne.1), Option.none_or,
    parsed_orElse, parenthesized_eq, enclosed_of_notNext (notNext_of_ne hs hne.2.1),
    Option.none_or, parsed_orElse, stringLiteral_of_notNext (notNext_of_ne hs hne.2.2.1)
    (notNext_of_ne hs hne.2.2.2), Option.none_or, parsed_orElse, hliteral, Option.some_or]

theorem primary_variable {name : String} (hname : IsQualifiedName name.toList)
    (hs : skipBlanks s = '$' :: (name.toList ++ rest)) (hrest : EndsStep rest) :
    (primary inner s).parsed = some (.variable name, rest) := by
  have hread : qualifiedName (name.toList ++ rest) = some (name, rest) := by
    rw [qualifiedName_append hname hrest.name
      (nameAfterColon_of_ne (hrest.colon.head? (by decide))), String.ofList_toList]
  have hvariable : (variableReference s).parsed = some (.variable name, rest) := by
    have hdollar : (exactly (Scan.char '$') (skipBlanks s)).parsed =
        some ((), name.toList ++ rest) := by
      rw [parsed_exactly, hs, char_cons]
    refine (parsed_named _ s).trans <| (parsed_bind_of_some hdollar).trans <|
      parsed_bind_of_some (a := name) (t := rest) ?_
    rw [hread]
  rw [primary, parsed_orElse, hvariable, Option.some_or]

/-! ## Parentheses -/

/-- The text is read as `expected` up to a closing parenthesis; where it is no expression, no
closing parenthesis follows what is read. -/
def RereadsInParentheses (r : Option (Expr × List Char)) (expected : Option Expr)
    (rest : List Char) : Prop :=
  match expected with
  | some e => r = some (e, ')' :: rest)
  | none => ∀ e t, r = some (e, t) → NotNext ')' t

theorem Rereads.inParentheses {r : Option (Expr × List Char)} {expected : Option Expr}
    (h : Rereads r expected (')' :: rest)) : RereadsInParentheses r expected rest := by
  cases expected with
  | some e => exact h
  | none => exact fun e t hr => (h e t hr).notNext (by decide)

/-- Parentheses are read if what they hold is, and else refused. -/
theorem primary_parentheses {expected : Option Expr} (hs : skipBlanks s = '(' :: t)
    (h : RereadsInParentheses (inner t).parsed expected rest) :
    (primary inner s).parsed = expected.map (·, rest) := by
  have hstring : (stringLiteral s).parsed = none :=
    stringLiteral_of_notNext (notNext_of_ne hs (by decide)) (notNext_of_ne hs (by decide))
  have hnumber : (numberLiteral s).parsed = none := by
    refine numberLiteral_of_noneInFront ?_ (notNext_of_ne hs (by decide))
    rw [hs]
    exact noneInFront_cons (by decide) t
  have hcall : (functionCall inner s).parsed = none := by
    refine functionCall_of_noneInFront ?_
    rw [hs]
    exact noneInFront_cons (by decide) t
  rw [primary, parsed_orElse, variableReference_of_notNext (notNext_of_ne hs (by decide)),
    Option.none_or, parsed_orElse, parenthesized_eq, parsed_orElse, hstring, Option.none_or,
    parsed_orElse, hnumber, Option.none_or, hcall, Option.or_none]
  cases expected with
  | some e => exact enclosed_of_some hs h (by decide)
  | none => exact enclosed_of_unclosed hs h

theorem pathExpr_parentheses {expected : Option Expr} (hs : skipBlanks s = '(' :: t)
    (h : RereadsInParentheses (inner t).parsed expected rest) (hrest : EndsPath rest) :
    Rereads (pathExpr inner s).parsed expected rest := by
  have hslash : NotNext '/' s := notNext_of_ne hs (by decide)
  have hprimary := primary_parentheses hs h
  cases expected with
  | some e => exact pathExpr_of_primary hslash hprimary hrest
  | none =>
    have hnone := pathExpr_of_refused hslash hprimary (relativePath_of_parenthesis hs (by decide))
    rintro e t he
    rw [hnone] at he
    cases he

/-! ## Names -/

/-- A name stands in front of nothing that makes an axis of it. -/
theorem axisOf_of_name {n : List Char} (hn : IsQualifiedName n) (hs : skipBlanks s = n ++ rest)
    (hname : NoneInFront isNameChar rest) (hcolon : NotNext ':' rest) :
    (axisOf s).parsed = none := by
  obtain ⟨p, q, rfl, hp, hq⟩ := hn.simple_prefix
  rw [List.append_assoc] at hs
  have hstop : NoneInFront isNameChar (q ++ rest) := by
    rcases hq with rfl | ⟨r, rfl, -⟩
    · exact hname
    · exact noneInFront_cons (by decide) _
  have hcolons : Scan.word [':', ':'] (skipBlanks (q ++ rest)) = none := by
    rcases hq with rfl | ⟨r, rfl, c, cs, rfl, hc, -⟩
    · exact word_refuses fun d hd heq => hcolon (by rw [← heq]; exact hd)
    · have hne : c ≠ ':' := by
        rintro rfl
        exact absurd hc (by decide)
      rw [List.cons_append, skipBlanks_cons (by decide)]
      simp [Scan.word, Scan.char, hne]
  have hnamed : (namedAxis s).parsed = none := by
    cases haxis : (token axisName s).parsed with
    | none => exact parsed_bind_of_none haxis
    | some r =>
      obtain ⟨axis, t⟩ := r
      refine (parsed_bind_of_some haxis).trans (parsed_bind_of_none ?_)
      rw [parsed_token, axisName, hs, hp.dropWhile hstop] at haxis
      obtain ⟨_, -, heq⟩ := Option.map_eq_some_iff.1 haxis
      obtain ⟨-, rfl⟩ := Prod.mk.inj heq
      rw [parsed_token, hcolons]
  have hat : (atSign s).parsed = none := by
    refine parsed_bind_of_none ?_
    rw [parsed_token]
    refine NotNext.char ?_
    obtain ⟨c, cs, rfl, hc, -⟩ := hp
    refine notNext_of_ne (by rw [hs]; rfl) ?_
    rintro rfl
    exact absurd hc (by decide)
  rw [axisOf, parsed_orElse, hnamed, hat]
  rfl

/-- A name with predicates is a step to children of that name. -/
theorem step_of_name {n : String} {ps : List Expr} (hn : IsQualifiedName n.toList)
    (hs : skipBlanks s = n.toList ++ rest) (hname : NoneInFront isNameChar rest)
    (hcolon : NotNext ':' rest) (hkind : (kindTest s).parsed = none)
    (hps : Repeats (predicate inner) rest ps u) :
    (step inner s).parsed = some (⟨.child, .name n, ps⟩, u) := by
  have hshort : (shortStep s).parsed = none := by
    obtain ⟨c, cs, hcs, hc⟩ : ∃ c cs, n.toList = c :: cs ∧ isNameStart c = true := by
      obtain ⟨p, q, hpq, ⟨c, cs, rfl, hc, -⟩, -⟩ := hn.simple_prefix
      exact ⟨c, cs ++ q, hpq, hc⟩
    exact shortStep_of_start hc (by rw [hs, hcs]; rfl)
  have hnode := nodeTest_of_name hn hs hname hcolon hkind
  rw [step, parsed_orElse, hshort, Option.none_or]
  exact (parsed_bind_of_some (optional_of_none (axisOf_of_name hn hs hname hcolon))).trans <|
    (parsed_bind_of_some hnode).trans (parsed_bind_of_some hps.many)

/-- A name alone is a step to the children of that name. -/
theorem relativePath_of_name (inner : Rule Expr) {n : String} (hn : IsQualifiedName n.toList)
    (hs : skipBlanks s = n.toList ++ rest) (hname : NoneInFront isNameChar rest)
    (hcolon : NotNext ':' rest) (hkind : (kindTest s).parsed = none) (hbracket : NotNext '[' rest)
    (hslash : NotNext '/' rest) :
    (relativePath inner s).parsed = some ([⟨.child, .name n, []⟩], rest) := by
  have hps : Repeats (predicate inner) rest [] rest := .stop (enclosed_of_notNext hbracket)
  exact relativePath_of_some (step_of_name hn hs hname hcolon hkind hps)
    (.stop (nextStep_of_notNext hslash))

/-- A text that starts with a name is neither a literal nor a variable. -/
theorem primary_of_name {n : List Char} (hn : IsQualifiedName n) (hs : skipBlanks s = n ++ rest) :
    (primary inner s).parsed = (functionCall inner s).parsed := by
  obtain ⟨p, q, rfl, ⟨c, cs, rfl, hc, -⟩, -⟩ := hn.simple_prefix
  have hs : skipBlanks s = c :: (cs ++ q ++ rest) := hs
  have hne : ∀ d, isNameStart d = false → NotNext d s := by
    intro d hd
    refine notNext_of_ne hs ?_
    rintro rfl
    rw [hc] at hd
    cases hd
  have hnumber : (numberLiteral s).parsed = none := by
    refine numberLiteral_of_noneInFront ?_ (hne _ (by decide))
    rw [hs]
    refine noneInFront_cons ?_ _
    cases hdigit : c.isDigit with
    | false => rfl
    | true =>
      rw [not_isNameStart_of_isDigit hdigit] at hc
      cases hc
  rw [primary, parsed_orElse, variableReference_of_notNext (hne _ (by decide)), Option.none_or,
    parsed_orElse, parenthesized_eq, enclosed_of_notNext (hne _ (by decide)), Option.none_or,
    parsed_orElse, stringLiteral_of_notNext (hne _ (by decide)) (hne _ (by decide)),
    Option.none_or, parsed_orElse, hnumber, Option.none_or]

theorem notNext_of_name {n : List Char} (hn : IsQualifiedName n) (hs : skipBlanks s = n ++ rest)
    (hc : isNameStart c = false) : NotNext c s := by
  obtain ⟨p, q, rfl, ⟨d, cs, rfl, hd, -⟩, -⟩ := hn.simple_prefix
  refine notNext_of_ne (by rw [hs]; rfl) ?_
  rintro rfl
  rw [hd] at hc
  cases hc

/-- The text of an infinite literal is a name. -/
theorem pathExpr_name {n : String} (hn : IsQualifiedName n.toList)
    (hs : skipBlanks s = n.toList ++ rest) (hrest : EndsPath rest) :
    (pathExpr inner s).parsed = some (.path .context [⟨.child, .name n, []⟩], rest) := by
  have hread : qualifiedName (skipBlanks s) = some (n, rest) := by
    rw [hs, qualifiedName_append hn hrest.name
      (nameAfterColon_of_ne (hrest.colon.head? (by decide))), String.ofList_toList]
  have hprimary : (primary inner s).parsed = none := by
    rw [primary_of_name hn hs, functionCall_of_unopened hread hrest.parenthesis]
  have hkind : (kindTest s).parsed = none :=
    kindTest_of_qualifiedName hn hs hrest.name hrest.parenthesis
  exact pathExpr_of_context (notNext_of_name hn hs (by decide)) hprimary <|
    relativePath_of_name inner hn hs hrest.name hrest.colon hkind hrest.bracket hrest.slash

/-! ## Calls -/

/-- An argument behind a comma. -/
def nextArgument (inner : Rule Expr) : Rule Expr := do
  mark ','
  inner

/-- The canonical text of arguments behind a first one. -/
def furtherArguments (es : List Expr) : List Char :=
  ((canonicalList es).map ([',', ' '] ++ ·)).flatten

theorem furtherArguments_cons (e : Expr) (es : List Expr) :
    furtherArguments (e :: es) = ',' :: ' ' :: (e.canonical ++ furtherArguments es) := by
  simp [furtherArguments, canonicalList]

theorem nextArgument_of_notNext (h : NotNext ',' s) : (nextArgument inner s).parsed = none :=
  parsed_bind_of_none h.mark

theorem nextArgument_eq (inner : Rule Expr) (hs : skipBlanks s = ',' :: t) :
    (nextArgument inner s).parsed = (inner t).parsed :=
  parsed_bind_of_some (mark_of_next hs)

theorem closes_furtherArguments (es : List Expr) (rest : List Char) :
    Closes (furtherArguments es ++ ')' :: rest) := by
  cases es with
  | nil => exact closes_cons (by decide) rest
  | cons e es =>
    rw [furtherArguments_cons]
    exact closes_cons (by decide) _

/-- All arguments are read up to the closing parenthesis, or it does not follow what is read. -/
theorem repeats_furtherArguments (rest : List Char) (es : List Expr)
    (hes : ∀ e ∈ es, ReadsInside inner e) :
    RepeatsOrStops (nextArgument inner) (NotNext ')') (furtherArguments es ++ ')' :: rest)
      (rereadAll es) (')' :: rest) := by
  have htext (e : Expr) (as : List Expr) : furtherArguments (e :: as) ++ ')' :: rest =
      ',' :: ' ' :: (e.canonical ++ (furtherArguments as ++ ')' :: rest)) := by
    rw [furtherArguments_cons, List.cons_append, List.cons_append, List.append_assoc]
  have hskip (e : Expr) (as : List Expr) :
      skipBlanks (furtherArguments (e :: as) ++ ')' :: rest) = _ :=
    (congrArg skipBlanks (htext e as)).trans (skipBlanks_cons (by decide) _)
  have hinside {e : Expr} (he : e ∈ es) (as : List Expr) :=
    (hes e he).reads (' ' :: (e.canonical ++ (furtherArguments as ++ ')' :: rest))) _
      (by rw [skipBlanks_space, (hes e he).begins.skipBlanks]) (closes_furtherArguments as rest)
  have hnext (e : Expr) (as : List Expr) := nextArgument_eq inner (hskip e as)
  refine repeats_texts reread rereadAll (furtherArguments · ++ ')' :: rest) rfl rereadAll_cons ?_
    es (fun e he as first hread => ?_) fun e he as hread => ?_
  · exact nextArgument_of_notNext
      (notNext_of_ne (skipBlanks_cons (by decide) rest) (by decide))
  · have hinside := hinside he as
    rw [hread] at hinside
    refine ⟨(hnext e as).trans hinside, ?_⟩
    rw [htext]
    simp only [List.length_cons, List.length_append]
    omega
  · have hinside := hinside he as
    rw [hread] at hinside
    cases hr : (nextArgument inner (furtherArguments (e :: as) ++ ')' :: rest)).parsed with
    | none => exact ⟨[], _, .stop hr, notNext_of_ne (hskip e as) (by decide)⟩
    | some r =>
      have hopens := hinside r.1 r.2 ((hnext e as).symm.trans hr)
      have hclosed : NotNext ')' r.2 := hopens.notNext (by decide)
      exact ⟨[r.1], r.2,
        .last hr (by simp) (nextArgument_of_notNext (hopens.notNext (by decide))), hclosed⟩

theorem arguments_canonical {es : List Expr} (hes : ∀ e ∈ es, ReadsInside inner e)
    (hclose : (inner (')' :: rest)).parsed = none)
    (hs : s = joined [',', ' '] (canonicalList es) ++ ')' :: rest) :
    match rereadAll es with
    | some read => (arguments inner s).parsed = some (read, ')' :: rest)
    | none => ∃ read t, (arguments inner s).parsed = some (read, t) ∧ NotNext ')' t := by
  subst hs
  cases es with
  | nil => exact parsed_bind_of_some (optional_of_none hclose)
  | cons e es =>
    obtain ⟨hbegins, hreads⟩ := hes e (by simp)
    have hfurther := repeats_furtherArguments rest es fun p hp => hes p (by simp [hp])
    have htext : joined [',', ' '] (canonicalList (e :: es)) ++ ')' :: rest =
        e.canonical ++ (furtherArguments es ++ ')' :: rest) := by
      rw [canonicalList, joined_cons, List.append_assoc]
      rfl
    have hinside := hreads _ _ (hbegins.skipBlanks _) (closes_furtherArguments es rest)
    have harguments : ∀ {first t as u},
        (inner (e.canonical ++ (furtherArguments es ++ ')' :: rest))).parsed = some (first, t) →
        Repeats (nextArgument inner) t as u →
        (arguments inner (e.canonical ++ (furtherArguments es ++ ')' :: rest))).parsed =
          some (first :: as, u) :=
      fun hfirst has =>
        (parsed_bind_of_some (optional_of_some hfirst)).trans (parsed_bind_of_some has.many)
    rw [htext]
    unfold reread at hinside
    cases hread : rereadOperand e with
    | none =>
      rw [hread] at hinside
      simp only [rereadAll, hread]
      cases hr : (inner (e.canonical ++ (furtherArguments es ++ ')' :: rest))).parsed with
      | none =>
        refine ⟨[], _, parsed_bind_of_some (optional_of_none hr), ?_⟩
        obtain ⟨c, t, heq, hc, hne⟩ := hbegins
        rw [heq]
        exact notNext_of_ne (skipBlanks_cons hc _) hne
      | some r =>
        have hopens := hinside r.1 r.2 hr
        exact ⟨_, r.2, harguments hr (.stop (nextArgument_of_notNext
          (hopens.notNext (by decide)))), hopens.notNext (by decide)⟩
    | some first =>
      rw [hread] at hinside
      simp only [rereadAll, hread]
      cases hall : rereadAll es with
      | none =>
        rw [hall] at hfurther
        obtain ⟨read, t, hread, ht⟩ := hfurther
        exact ⟨_, t, harguments hinside hread, ht⟩
      | some read =>
        rw [hall] at hfurther
        exact harguments hinside hfurther

/-- A function is named otherwise than a node type. -/
theorem nodeType_of_function {f : String} (hf : IsQualifiedName f.toList)
    (hlookup : nodeTypes.lookup f = none) (u : List Char) :
    opensNodeType (f.toList ++ '(' :: u) = false ∧
      (skipBlanks s = f.toList ++ '(' :: u → (kindTest s).parsed = none) := by
  obtain ⟨p, q, hpq, hp, rfl | ⟨r, rfl, -⟩⟩ := hf.simple_prefix
  · rw [List.append_nil] at hpq
    have hstop : NoneInFront isNameChar ('(' :: u) := noneInFront_cons (by decide) u
    have htype : nodeType (f.toList ++ '(' :: u) = none := by
      rw [nodeType, hpq, hp.takeWhile hstop, ← hpq, String.ofList_toList, hlookup]
      rfl
    refine ⟨by rw [opensNodeType, htype], fun hs => parsed_bind_of_none ?_⟩
    rw [parsed_token, hs, htype]
  · have hstop : NoneInFront isNameChar (':' :: r ++ '(' :: u) := noneInFront_cons (by decide) _
    have hskip : skipBlanks (':' :: r ++ '(' :: u) = ':' :: r ++ '(' :: u :=
      skipBlanks_cons (by decide) _
    rw [hpq, List.append_assoc]
    refine ⟨?_, fun hs => kindTest_of_name hp hs hstop (notNext_of_ne hskip (by decide))⟩
    rw [opensNodeType, nodeType, hp.takeWhile hstop, hp.dropWhile hstop]
    cases nodeTypes.lookup (String.ofList p) with
    | none => rfl
    | some test => simp only [Option.map_some, hskip]; rfl

theorem pathExpr_call {f : String} {args : List Expr} (hf : IsQualifiedName f.toList)
    (hlookup : nodeTypes.lookup f = none) (hargs : ∀ e ∈ args, ReadsInside inner e)
    (hclose : (inner (')' :: rest)).parsed = none)
    (hs : skipBlanks s = (Expr.call f args).canonical ++ rest) (hrest : EndsPath rest) :
    Rereads (pathExpr inner s).parsed (rereadOperand (.call f args)) rest := by
  have hs : skipBlanks s =
      f.toList ++ '(' :: (joined [',', ' '] (canonicalList args) ++ ')' :: rest) := by
    rw [hs, canonical]
    simp
  have hstop : ∀ u, NoneInFront isNameChar ('(' :: u) := fun u => noneInFront_cons (by decide) u
  have hskip : ∀ u, skipBlanks ('(' :: u) = '(' :: u := skipBlanks_cons (by decide)
  have hslash : NotNext '/' s := notNext_of_name hf hs (by decide)
  obtain ⟨hopens, hkind⟩ := nodeType_of_function (s := s) hf hlookup
    (joined [',', ' '] (canonicalList args) ++ ')' :: rest)
  have hname : (token qualifiedName (skipBlanks s)).parsed =
      some (f, '(' :: (joined [',', ' '] (canonicalList args) ++ ')' :: rest)) := by
    rw [parsed_token, skipBlanks_skipBlanks, hs, qualifiedName_append hf (hstop _)
      (nameAfterColon_of_ne (by simp)), String.ofList_toList]
  have hcall : ∀ {read t}, (arguments inner
      (joined [',', ' '] (canonicalList args) ++ ')' :: rest)).parsed = some (read, t) →
      (functionCall inner s).parsed = ((mark ')' t).parsed.map fun r => (.call f read, r.2)) := by
    intro read t hread
    rw [parsed_functionCall, hs, hopens, ← hs]
    refine (parsed_bind_of_some hname).trans <|
      (parsed_bind_of_some (mark_of_next (hskip _))).trans <| (parsed_bind_of_some hread).trans ?_
    rw [parsed_bind]
    cases (mark ')' t).parsed <;> rfl
  have harguments := arguments_canonical hargs hclose rfl
  rw [rereadOperand]
  cases hall : rereadAll args with
  | some read =>
    rw [hall] at harguments
    refine pathExpr_of_primary hslash ?_ hrest
    rw [primary_of_name hf hs, hcall harguments,
      mark_of_next (skipBlanks_cons (by decide) rest)]
    rfl
  | none =>
    rw [hall] at harguments
    obtain ⟨read, t, hread, ht⟩ := harguments
    have hprimary : (primary inner s).parsed = none := by
      rw [primary_of_name hf hs, hcall hread, ht.mark]
      rfl
    have hpath := relativePath_of_name inner hf hs (hstop _)
      (notNext_of_ne (hskip _) (by decide)) (hkind hs) (notNext_of_ne (hskip _) (by decide))
      (notNext_of_ne (hskip _) (by decide))
    intro e u he
    rw [pathExpr_of_context hslash hprimary hpath] at he
    obtain ⟨-, rfl⟩ := Prod.mk.inj (Option.some.inj he)
    exact ⟨_, .inl rfl⟩

/-! ## Filters and paths -/

theorem pathExpr_of_filterPath {r : Expr × List Char} (hslash : NotNext '/' s)
    (h : (filterPath inner s).parsed = some r) : (pathExpr inner s).parsed = some r := by
  rw [pathExpr, parsed_orElse, absolutePath_of_notNext hslash, Option.none_or, parsed_orElse, h]
  rfl

/-- What is read of an expression in parentheses, given what stands behind it. -/
theorem primary_inside {e : Expr} (he : ReadsInside inner e)
    (hs : skipBlanks s = '(' :: (e.canonical ++ ')' :: rest)) :
    (primary inner s).parsed = (reread e).map (·, rest) :=
  primary_parentheses hs <| Rereads.inParentheses <|
    he.reads _ _ (he.begins.skipBlanks _) (closes_cons (by decide) rest)

theorem rereadAll_ne_nil {es read : List Expr} (hes : es ≠ []) (h : rereadAll es = some read) :
    read ≠ [] := by
  rintro rfl
  cases es with
  | nil => exact hes rfl
  | cons e es =>
    simp only [rereadAll, Option.bind_eq_bind, Option.bind_eq_some_iff, Option.some.injEq] at h
    obtain ⟨_, -, _, -, h⟩ := h
    cases h

/-- Where the expression in parentheses in front is not read, nothing is. -/
theorem Rereads.of_unread_base (hslash : NotNext '/' s) (hprimary : (primary inner s).parsed = none)
    (hs : skipBlanks s = '(' :: t) : Rereads (pathExpr inner s).parsed none rest := by
  intro e u he
  rw [pathExpr_of_refused hslash hprimary (relativePath_of_parenthesis hs (by decide))] at he
  cases he

theorem pathExpr_filter {base : Expr} {predicates : List Expr} (hbase : ReadsInside inner base)
    (hpredicates : ∀ e ∈ predicates, ReadsInside inner e) (hne : predicates ≠ [])
    (hs : skipBlanks s = (Expr.filter base predicates).canonical ++ rest) (hrest : EndsPath rest) :
    Rereads (pathExpr inner s).parsed (rereadOperand (.filter base predicates)) rest := by
  have hs : skipBlanks s =
      '(' :: (base.canonical ++ ')' :: (canonicalPredicates predicates ++ rest)) := by
    rw [hs, canonical]
    simp
  have hslash : NotNext '/' s := notNext_of_ne hs (by decide)
  have hprimary := primary_inside hbase hs
  have hrepeats := repeats_predicates hrest.bracket predicates hpredicates
  unfold reread at hprimary
  rw [rereadOperand]
  cases hread : rereadOperand base with
  | none =>
    rw [hread] at hprimary
    exact .of_unread_base hslash hprimary hs
  | some b =>
    rw [hread] at hprimary
    cases hall : rereadAll predicates with
    | none =>
      rw [hall] at hrepeats
      obtain ⟨ps, _, hps, t, rfl⟩ := hrepeats
      have hpath := pathExpr_of_filterPath hslash
        (filterPath_of_base hprimary hps (notNext_slash_bracket t))
      intro e u he
      rw [hpath] at he
      obtain ⟨-, rfl⟩ := Prod.mk.inj (Option.some.inj he)
      exact ⟨_, .inr rfl⟩
    | some ps =>
      rw [hall] at hrepeats
      have hfiltered : filtered (signed base b) ps = .filter (signed base b) ps := by
        cases ps with
        | nil => exact absurd rfl (rereadAll_ne_nil hne hall)
        | cons e es => rfl
      have hpath := pathExpr_of_filterPath hslash
        (filterPath_of_base hprimary hrepeats hrest.slash)
      rwa [hfiltered] at hpath

/-- Steps that cannot all be read leave a bracket behind the path. -/
theorem Rereads.of_steps (start : Start Expr) {r : Option (Expr × List Char)}
    {path : Option (List (Step Expr) × List Char)} {steps : Option (List (Step Expr))}
    (h : RereadsPart path steps rest)
    (hr : ∀ ss t, path = some (ss, t) → r = some (.path start ss, t)) :
    Rereads r (steps.map (.path start)) rest := by
  cases steps with
  | none =>
    obtain ⟨ss, t, hpath⟩ := h
    intro e u he
    rw [hr ss _ hpath] at he
    obtain ⟨-, rfl⟩ := Prod.mk.inj (Option.some.inj he)
    exact ⟨_, .inr rfl⟩
  | some ss => exact hr ss rest h

variable {st : Step Expr} {ss : List (Step Expr)}

theorem pathExpr_nodes {base : Expr} (hbase : ReadsInside inner base)
    (hss : ∀ s ∈ st :: ss, ReadsStep inner s)
    (hs : skipBlanks s = (Expr.path (.nodes base) (st :: ss)).canonical ++ rest)
    (hrest : EndsPath rest) :
    Rereads (pathExpr inner s).parsed (rereadOperand (.path (.nodes base) (st :: ss))) rest := by
  obtain ⟨c, cs, hstep, -⟩ := canonicalStep_cons st
  have hs : skipBlanks s = '(' :: (base.canonical ++
      ')' :: '/' :: (canonicalStep st ++ (furtherSteps ss ++ rest))) := by
    rw [hs, canonical, joined_canonicalSteps, hstep, List.cons_append, canonicalStart]
    simp
  have hslash : NotNext '/' s := notNext_of_ne hs (by decide)
  have hprimary := primary_inside hbase hs
  have hpath := relativePath_canonical (s := canonicalStep st ++ (furtherSteps ss ++ rest)) hss
    (by rw [(begins_step st).skipBlanks, joined_canonicalSteps, List.append_assoc]) hrest
  unfold reread at hprimary
  rw [rereadOperand, rereadStart]
  cases hread : rereadOperand base with
  | none =>
    rw [hread] at hprimary
    exact .of_unread_base hslash hprimary hs
  | some b =>
    rw [hread] at hprimary
    have hresult := Rereads.of_steps (.nodes (signed base b)) hpath fun steps t hsteps =>
      pathExpr_of_filterPath hslash (filterPath_of_steps hprimary hsteps)
    cases hall : rereadSteps (st :: ss) <;> rw [hall] at hresult <;> exact hresult

/-- Steps behind a single slash start at the root. -/
theorem pathExpr_of_slash {steps : List (Step Expr)} (hs : skipBlanks s = '/' :: c :: u)
    (hc : c ≠ '/') (hsteps : (relativePath inner (c :: u)).parsed = some (steps, t)) :
    (pathExpr inner s).parsed = some (.path .root steps, t) := by
  have hdouble : (token (Scan.word ['/', '/']) s).parsed = none := by
    rw [parsed_token, hs, word_slashes hc]
  have hsingle : (token (Scan.char '/') s).parsed = some ((), c :: u) := by
    rw [parsed_token, hs, char_cons]
  have habsolute : (absolutePath inner s).parsed = some (.path .root steps, t) := by
    rw [absolutePath, parsed_orElse, parsed_bind_of_none hdouble, Option.none_or]
    exact (parsed_bind_of_some hsingle).trans (parsed_bind_of_some (optional_of_some hsteps))
  rw [pathExpr, parsed_orElse, habsolute]
  rfl

theorem pathExpr_root (hss : ∀ s ∈ st :: ss, ReadsStep inner s)
    (hs : skipBlanks s = (Expr.path .root (st :: ss)).canonical ++ rest) (hrest : EndsPath rest) :
    Rereads (pathExpr inner s).parsed (rereadOperand (.path .root (st :: ss))) rest := by
  obtain ⟨c, cs, hstep, hc⟩ := canonicalStep_cons st
  have hjoined : joined ['/'] (canonicalSteps (st :: ss)) ++ rest
      = c :: (cs ++ (furtherSteps ss ++ rest)) := by
    rw [joined_canonicalSteps, hstep]
    simp
  have hs : skipBlanks s = '/' :: c :: (cs ++ (furtherSteps ss ++ rest)) := by
    rw [hs, canonical, joined_canonicalSteps, hstep, List.cons_append, canonicalStart]
    simp
  have hbegins : skipBlanks (c :: (cs ++ (furtherSteps ss ++ rest)))
      = c :: (cs ++ (furtherSteps ss ++ rest)) := (begins_of_isNameStart hc []).skipBlanks _
  have hpath := relativePath_canonical hss (hbegins.trans hjoined.symm) hrest
  have hresult := Rereads.of_steps .root (r := (pathExpr inner s).parsed) hpath
    fun steps t hsteps => pathExpr_of_slash hs (ne_slash_of_isNameStart hc) hsteps
  rw [rereadOperand, rereadStart]
  cases hall : rereadSteps (st :: ss) <;> rw [hall] at hresult <;> exact hresult

/-- The path to the root is read in front of a closing mark. -/
theorem pathExpr_slash (hs : skipBlanks s = '/' :: ')' :: rest) :
    (pathExpr inner s).parsed = some (.path .root [], ')' :: rest) := by
  have hdouble : (token (Scan.word ['/', '/']) s).parsed = none := by
    rw [parsed_token, hs]
    simp [Scan.word, Scan.char]
  have hsingle : (token (Scan.char '/') s).parsed = some ((), ')' :: rest) := by
    rw [parsed_token, hs, char_cons]
  have hsteps : (relativePath inner (')' :: rest)).parsed = none :=
    relativePath_of_parenthesis (skipBlanks_cons (by decide) rest) (by decide)
  have habsolute : (absolutePath inner s).parsed = some (.path .root [], ')' :: rest) := by
    rw [absolutePath, parsed_orElse, parsed_bind_of_none hdouble, Option.none_or]
    exact (parsed_bind_of_some hsingle).trans (parsed_bind_of_some (optional_of_none hsteps))
  rw [pathExpr, parsed_orElse, habsolute]
  rfl

theorem pathExpr_context (hss : ∀ s ∈ st :: ss, ReadsStep inner s)
    (hs : skipBlanks s = (Expr.path .context (st :: ss)).canonical ++ rest)
    (hrest : EndsPath rest) :
    Rereads (pathExpr inner s).parsed (rereadOperand (.path .context (st :: ss))) rest := by
  have hs : skipBlanks s = joined ['/'] (canonicalSteps (st :: ss)) ++ rest := hs
  have hpath := relativePath_canonical hss hs hrest
  obtain ⟨axis, test, predicates⟩ := st
  have hname : IsQualifiedName axis.name.toList := .inl (isSimpleName_axis axis)
  have hs : skipBlanks s = axis.name.toList ++ ':' :: ':' ::
      (test.canonical ++ canonicalPredicates predicates ++ furtherSteps ss ++ rest) := by
    rw [hs, joined_canonicalSteps, canonicalStep]
    simp
  have hread : qualifiedName (skipBlanks s) = some (axis.name, ':' :: ':' ::
      (test.canonical ++ canonicalPredicates predicates ++ furtherSteps ss ++ rest)) := by
    rw [hs, qualifiedName_append hname (noneInFront_cons (by decide) _)
      (nameAfterColon_of_not_start (noneInFront_cons (by decide) _)), String.ofList_toList]
  have hprimary : (primary inner s).parsed = none := by
    rw [primary_of_name hname hs, functionCall_of_unopened hread
      (notNext_of_ne (skipBlanks_cons (by decide) _) (by decide))]
  have hresult := Rereads.of_steps .context hpath fun steps t hsteps =>
    pathExpr_of_context (notNext_of_name hname hs (by decide)) hprimary hsteps
  rw [rereadOperand, rereadStart]
  cases hall : rereadSteps (⟨axis, test, predicates⟩ :: ss) <;> rw [hall] at hresult <;>
    exact hresult

end ReactiveForm.Expr
