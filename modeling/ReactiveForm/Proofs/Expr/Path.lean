import ReactiveForm.Proofs.Expr.Token

/-!
# Reading canonical steps

The steps of a path are read one by one. Where a predicate is no expression, the steps before it
are read and its bracket is left standing.
-/

set_option autoImplicit false

namespace ReactiveForm.Expr

open Rule

variable {s t u rest : List Char} {inner : Rule Expr}

/-! ## Outcomes -/

/-- The text goes on with an opening mark. -/
def Opens (t : List Char) : Prop :=
  ∃ u, t = '(' :: u ∨ t = '[' :: u

/-- The text is read as `expected`; where it is no expression, either nothing is read or an
opening mark is left over. -/
def Rereads {α : Type} (r : Option (α × List Char)) (expected : Option α) (rest : List Char) :
    Prop :=
  match expected with
  | some a => r = some (a, rest)
  | none => ∀ a t, r = some (a, t) → Opens t

/-- The text is read as `expected`; where it cannot be, something is read and a bracket is left
over. -/
def RereadsPart {α : Type} (r : Option (α × List Char)) (expected : Option α)
    (rest : List Char) : Prop :=
  match expected with
  | some a => r = some (a, rest)
  | none => ∃ a t, r = some (a, '[' :: t)

/-- The first character is no blank and no closing mark. -/
def Begins (s : List Char) : Prop :=
  ∃ c t, s = c :: t ∧ Number.isPadding c = false ∧ c ≠ ')'

theorem Begins.skipBlanks (h : Begins s) (rest : List Char) :
    skipBlanks (s ++ rest) = s ++ rest := by
  obtain ⟨c, t, rfl, hc, -⟩ := h
  exact skipBlanks_cons hc _

theorem begins_cons {c : Char} (hc : Number.isPadding c = false) (hne : c ≠ ')') (s : List Char) :
    Begins (c :: s) :=
  ⟨c, s, rfl, hc, hne⟩

theorem Begins.append (h : Begins s) (rest : List Char) : Begins (s ++ rest) := by
  obtain ⟨c, t, rfl, hc, hne⟩ := h
  exact begins_cons hc hne _

theorem begins_of_isNameStart {c : Char} (hc : isNameStart c = true) (s : List Char) :
    Begins (c :: s) := by
  refine begins_cons ?_ ?_ s
  · cases hpadding : Number.isPadding c with
    | false => rfl
    | true =>
      simp only [Number.isPadding, Bool.or_eq_true, decide_eq_true_eq] at hpadding
      rcases hpadding with ((rfl | rfl) | rfl) | rfl <;> exact absurd hc (by decide)
  · rintro rfl
    exact absurd hc (by decide)

theorem IsSimpleName.begins (h : IsSimpleName s) : Begins s := by
  obtain ⟨c, cs, rfl, hc, -⟩ := h
  exact begins_of_isNameStart hc cs

theorem IsQualifiedName.begins (h : IsQualifiedName s) : Begins s := by
  obtain ⟨p, q, rfl, hp, -⟩ := h.simple_prefix
  exact hp.begins.append q

/-- Inside brackets the canonical text of `e` is read as `reread e`. -/
structure ReadsInside (inner : Rule Expr) (e : Expr) : Prop where
  begins : Begins e.canonical
  reads : ∀ s rest, skipBlanks s = e.canonical ++ rest → Closes rest →
    Rereads (inner s).parsed (reread e) rest

theorem Opens.skipBlanks_eq (h : Opens t) : skipBlanks t = t := by
  obtain ⟨u, rfl | rfl⟩ := h <;> exact skipBlanks_cons (by decide) _

theorem Opens.notNext {c : Char} (h : Opens t) (hc : c ∉ ['(', '[']) : NotNext c t := by
  simp only [List.mem_cons, List.not_mem_nil, or_false, not_or] at hc
  have hskip := h.skipBlanks_eq
  obtain ⟨u, rfl | rfl⟩ := h
  · exact notNext_of_ne hskip (Ne.symm hc.1)
  · exact notNext_of_ne hskip (Ne.symm hc.2)

/-! ## Brackets -/

/-- A rule between an opening and a closing mark. -/
def enclosed (opening closing : Char) (inner : Rule Expr) : Rule Expr := Rule.named do
  mark opening
  let e ← inner
  mark closing
  pure e

theorem parenthesized_eq (inner : Rule Expr) : parenthesized inner = enclosed '(' ')' inner :=
  rfl

variable {a b : Char}

theorem enclosed_of_notNext (h : NotNext a s) : (enclosed a b inner s).parsed = none := by
  refine (parsed_named _ s).trans (parsed_bind_of_none (NotNext.mark ?_))
  rwa [NotNext, skipBlanks_skipBlanks]

theorem enclosed_of_some {e : Expr} (hs : skipBlanks s = a :: t)
    (h : (inner t).parsed = some (e, b :: u)) (hb : Number.isPadding b = false) :
    (enclosed a b inner s).parsed = some (e, u) := by
  have hopen : (mark a (skipBlanks s)).parsed = some ((), t) :=
    mark_of_next (by rw [skipBlanks_skipBlanks, hs])
  have hclose : (mark b (b :: u)).parsed = some ((), u) := mark_of_next (skipBlanks_cons hb u)
  exact (parsed_named _ s).trans <| (parsed_bind_of_some hopen).trans <|
    (parsed_bind_of_some h).trans (parsed_bind_of_some hclose)

/-- Without the closing mark behind it, what stands inside is not read. -/
theorem enclosed_of_unclosed (hs : skipBlanks s = a :: t)
    (h : ∀ e u, (inner t).parsed = some (e, u) → NotNext b u) :
    (enclosed a b inner s).parsed = none := by
  have hopen : (mark a (skipBlanks s)).parsed = some ((), t) :=
    mark_of_next (by rw [skipBlanks_skipBlanks, hs])
  refine (parsed_named _ s).trans <| (parsed_bind_of_some hopen).trans ?_
  cases hr : (inner t).parsed with
  | none => exact parsed_bind_of_none hr
  | some r => exact (parsed_bind_of_some hr).trans (parsed_bind_of_none (h r.1 r.2 hr).mark)

/-! ## Predicates -/

/-- All predicates are read, or those before the first one that is no expression. -/
theorem repeats_predicates (hrest : NotNext '[' rest) (es : List Expr)
    (hes : ∀ e ∈ es, ReadsInside inner e) :
    RepeatsOrStops (predicate inner) (fun t => ∃ u, t = '[' :: u) (canonicalPredicates es ++ rest)
      (rereadAll es) rest := by
  have htext (e : Expr) (ps : List Expr) : canonicalPredicates (e :: ps) ++ rest =
      '[' :: (e.canonical ++ ']' :: (canonicalPredicates ps ++ rest)) := by
    simp [canonicalPredicates]
  have hskip (e : Expr) (ps : List Expr) := skipBlanks_cons (c := '[') (by decide)
    (e.canonical ++ ']' :: (canonicalPredicates ps ++ rest))
  have hinside {e : Expr} (he : e ∈ es) (ps : List Expr) :=
    (hes e he).reads _ _ ((hes e he).begins.skipBlanks _)
      (closes_cons (c := ']') (by decide) (canonicalPredicates ps ++ rest))
  refine repeats_texts reread rereadAll (canonicalPredicates · ++ rest) rfl rereadAll_cons
    (enclosed_of_notNext hrest) es (fun e he ps first hread => ?_) fun e he ps hread => ?_
  · have hinside := hinside he ps
    rw [hread] at hinside
    rw [htext]
    refine ⟨enclosed_of_some (b := ']') (hskip e ps) hinside (by decide), ?_⟩
    simp only [List.length_cons, List.length_append]
    omega
  · have hinside := hinside he ps
    rw [hread] at hinside
    rw [htext]
    refine ⟨[], _, .stop (enclosed_of_unclosed (hskip e ps) fun e' u hu => ?_), _, rfl⟩
    exact (hinside e' u hu).notNext (by decide)

/-! ## Axes and node tests -/

/-- What may stand behind a node test. -/
structure EndsTest (rest : List Char) : Prop where
  name : NoneInFront isNameChar rest
  colon : NotNext ':' rest
  parenthesis : NotNext '(' rest

theorem isSimpleName_axis (axis : Axis) : IsSimpleName axis.name.toList := by
  have h : simpleName axis.name.toList = some (axis.name.toList, []) := by
    cases axis <;> decide
  exact (simpleName_sound h).1

theorem ofName?_name (axis : Axis) : Axis.ofName? axis.name = some axis := by
  cases axis <;> decide

theorem namedAxis_canonical (axis : Axis)
    (hs : skipBlanks s = axis.name.toList ++ ':' :: ':' :: rest) :
    (namedAxis s).parsed = some (axis, rest) := by
  have hstop : NoneInFront isNameChar (':' :: ':' :: rest) := noneInFront_cons (by decide) _
  have hname : (token axisName s).parsed = some (axis, ':' :: ':' :: rest) := by
    rw [parsed_token, hs, axisName, (isSimpleName_axis axis).takeWhile hstop,
      (isSimpleName_axis axis).dropWhile hstop, String.ofList_toList, ofName?_name]
    rfl
  exact (parsed_bind_of_some hname).trans (parsed_bind_of_some (p := token _) rfl)

/-- A name is no node type where no parenthesis stands behind it. -/
theorem kindTest_of_name {p q : List Char} (hp : IsSimpleName p) (hs : skipBlanks s = p ++ q)
    (hq : NoneInFront isNameChar q) (hmark : NotNext '(' q) : (kindTest s).parsed = none := by
  cases htype : (token nodeType s).parsed with
  | none => exact parsed_bind_of_none htype
  | some r =>
    obtain ⟨test, t⟩ := r
    refine (parsed_bind_of_some htype).trans (parsed_bind_of_none ?_)
    rw [parsed_token, nodeType, hs, hp.dropWhile hq] at htype
    obtain ⟨_, -, heq⟩ := Option.map_eq_some_iff.1 htype
    obtain ⟨-, rfl⟩ := Prod.mk.inj heq
    exact hmark.mark

theorem kindTest_of_qualifiedName {n : String} (hn : IsQualifiedName n.toList)
    (hs : skipBlanks s = n.toList ++ rest) (hname : NoneInFront isNameChar rest)
    (hmark : NotNext '(' rest) : (kindTest s).parsed = none := by
  obtain ⟨p, q, hpq, hp, hq⟩ := hn.simple_prefix
  refine kindTest_of_name hp (by rw [hs, hpq, List.append_assoc]) ?_ ?_
  · rcases hq with rfl | ⟨r, rfl, -⟩
    · exact hname
    · exact noneInFront_cons (by decide) _
  · rcases hq with rfl | ⟨r, rfl, -⟩
    · exact hmark
    · exact notNext_of_ne (skipBlanks_cons (by decide) _) (by decide)

theorem nodeType_canonical {test : NodeTest} (hs : skipBlanks s = u)
    (htype : nodeType u = some (test, '(' :: ')' :: rest)) :
    (nodeTest s).parsed = some (test, rest) := by
  have hname : (token nodeType s).parsed = some (test, '(' :: ')' :: rest) := by
    rw [parsed_token, hs, htype]
  have hkind : (kindTest s).parsed = some (test, rest) :=
    (parsed_bind_of_some hname).trans <|
      (parsed_bind_of_some (mark_of_next (skipBlanks_cons (by decide) _))).trans
        (parsed_bind_of_some (mark_of_next (skipBlanks_cons (by decide) _)))
  rw [nodeTest, parsed_orElse, hkind, Option.some_or]

theorem nameTest_of_start {c : Char} (hc : isNameStart c = true) (s : List Char) :
    nameTest (c :: s) =
      match simpleName (c :: s) with
      | some (name, ':' :: '*' :: rest) => some (.qualifier (String.ofList name), rest)
      | _ => (qualifiedName (c :: s)).map fun (name, rest) => (.name name, rest) := by
  unfold nameTest
  split
  · next rest heq =>
    cases heq
    exact absurd hc (by decide)
  · rfl

theorem canonical_qualifier (p : String) :
    (NodeTest.qualifier p).canonical = p.toList ++ [':', '*'] :=
  rfl

theorem begins_test {test : NodeTest} (h : test.Proper) : Begins test.canonical := by
  cases test with
  | any => exact begins_cons (by decide) (by decide) _
  | qualifier p =>
    have h : IsSimpleName p.toList := by simpa only [NodeTest.Proper] using h
    exact h.begins.append _
  | name n =>
    have h : IsQualifiedName n.toList := by simpa only [NodeTest.Proper] using h
    exact h.begins
  | node | text | comment => exact begins_cons (by decide) (by decide) _

/-- A name that is no node type in front of a parenthesis. -/
theorem nodeTest_of_name {n : String} (hn : IsQualifiedName n.toList)
    (hs : skipBlanks s = n.toList ++ rest) (hname : NoneInFront isNameChar rest)
    (hcolon : NotNext ':' rest) (hkind : (kindTest s).parsed = none) :
    (nodeTest s).parsed = some (.name n, rest) := by
  have hhead := hcolon.head? (by decide)
  have hqualified := qualifiedName_append hn hname (nameAfterColon_of_ne hhead)
  obtain ⟨p, q, hpq, hp, hq⟩ := hn.simple_prefix
  have hsimple : simpleName (n.toList ++ rest) = some (p, q ++ rest) := by
    rw [hpq, List.append_assoc]
    refine simpleName_append hp ?_
    rcases hq with rfl | ⟨r, rfl, -⟩
    · exact hname
    · exact noneInFront_cons (by decide) _
  have hwild : ∀ u, q ++ rest ≠ ':' :: '*' :: u := by
    rintro u hu
    rcases hq with rfl | ⟨r, rfl, c, cs, rfl, hc, -⟩
    · exact hhead ':' (by rw [List.nil_append] at hu; rw [hu]; rfl) rfl
    · obtain ⟨rfl, -⟩ : c = '*' ∧ _ := by simpa using hu
      exact absurd hc (by decide)
  rw [nodeTest, parsed_orElse, parsed_token, hs, hkind, Option.none_or]
  obtain ⟨c, cs, hcs, hc, -⟩ := hp
  rw [hcs, List.cons_append] at hpq
  rw [hpq, List.cons_append] at hsimple hqualified ⊢
  rw [nameTest_of_start hc, hsimple, hqualified]
  split
  · next name u heq => exact absurd (Prod.mk.inj (Option.some.inj heq)).2 (hwild u)
  · simp [← hpq]

theorem nodeTest_canonical {test : NodeTest} (htest : test.Proper)
    (hs : skipBlanks s = test.canonical ++ rest) (hrest : EndsTest rest) :
    (nodeTest s).parsed = some (test, rest) := by
  cases test with
  | any =>
    have hkind : (kindTest s).parsed = none := by
      refine parsed_bind_of_none ?_
      rw [parsed_token, hs]
      rfl
    rw [nodeTest, parsed_orElse, hkind, parsed_token, hs]
    rfl
  | qualifier p =>
    have hp : IsSimpleName p.toList := by simpa only [NodeTest.Proper] using htest
    have hs : skipBlanks s = p.toList ++ ':' :: '*' :: rest := by
      rw [hs, canonical_qualifier, List.append_assoc]
      rfl
    have hstop : NoneInFront isNameChar (':' :: '*' :: rest) := noneInFront_cons (by decide) _
    rw [nodeTest, parsed_orElse, parsed_token, hs,
      kindTest_of_name hp hs hstop (notNext_of_ne (skipBlanks_cons (by decide) _) (by decide))]
    have hname := simpleName_append hp hstop
    obtain ⟨c, cs, hcs, hc, -⟩ := hp
    rw [hcs] at hname ⊢
    simp only [List.cons_append] at hname ⊢
    rw [Option.none_or, nameTest_of_start hc, hname]
    simp [← hcs]
  | name n =>
    have hn : IsQualifiedName n.toList := by simpa only [NodeTest.Proper] using htest
    have hs : skipBlanks s = n.toList ++ rest := hs
    exact nodeTest_of_name hn hs hrest.name hrest.colon
      (kindTest_of_qualifiedName hn hs hrest.name hrest.parenthesis)
  | node => exact nodeType_canonical hs rfl
  | text => exact nodeType_canonical hs rfl
  | comment => exact nodeType_canonical hs rfl

/-! ## Steps -/

theorem shortStep_of_start {c : Char} (hc : isNameStart c = true) (hs : skipBlanks s = c :: t) :
    (shortStep s).parsed = none := by
  have hdot : c ≠ '.' := by
    rintro rfl
    exact absurd hc (by decide)
  simp [shortStep, hs, Scan.word, Scan.char, hdot]

theorem endsTest_predicates (es : List Expr) (hrest : EndsStep rest) :
    EndsTest (canonicalPredicates es ++ rest) := by
  cases es with
  | nil => exact ⟨hrest.name, hrest.colon, hrest.parenthesis⟩
  | cons e es =>
    have htext : canonicalPredicates (e :: es) ++ rest =
        '[' :: (e.canonical ++ ']' :: (canonicalPredicates es ++ rest)) := by
      simp [canonicalPredicates]
    rw [htext]
    have hskip : ∀ u, skipBlanks ('[' :: u) = '[' :: u := skipBlanks_cons (by decide)
    exact ⟨noneInFront_cons (by decide) _, notNext_of_ne (hskip _) (by decide),
      notNext_of_ne (hskip _) (by decide)⟩

/-- The predicates of a step are read inside the brackets. -/
def ReadsStep (inner : Rule Expr) (step : Step Expr) : Prop :=
  step.test.Proper ∧ ∀ e ∈ step.predicates, ReadsInside inner e

theorem step_canonical {st : Step Expr} (hst : ReadsStep inner st)
    (hs : skipBlanks s = canonicalStep st ++ rest) (hrest : EndsStep rest) :
    RereadsPart (step inner s).parsed (rereadStep st) rest := by
  obtain ⟨axis, test, predicates⟩ := st
  obtain ⟨htest, hpredicates⟩ := hst
  have hs : skipBlanks s = axis.name.toList ++
      ':' :: ':' :: (test.canonical ++ (canonicalPredicates predicates ++ rest)) := by
    simpa only [canonicalStep, List.append_assoc, List.cons_append] using hs
  have hshort : (shortStep s).parsed = none := by
    obtain ⟨c, cs, hname, hc, -⟩ := isSimpleName_axis axis
    rw [hname] at hs
    exact shortStep_of_start hc hs
  have haxis : (Rule.optional axisOf s).parsed =
      some (some axis, test.canonical ++ (canonicalPredicates predicates ++ rest)) := by
    refine optional_of_some ?_
    rw [axisOf, parsed_orElse, namedAxis_canonical axis hs, Option.some_or]
  have hnode : (nodeTest (test.canonical ++ (canonicalPredicates predicates ++ rest))).parsed =
      some (test, canonicalPredicates predicates ++ rest) :=
    nodeTest_canonical htest ((begins_test htest).skipBlanks _) (endsTest_predicates predicates hrest)
  have hstep : ∀ {ps u}, Repeats (predicate inner) (canonicalPredicates predicates ++ rest) ps u →
      (step inner s).parsed = some (⟨axis, test, ps⟩, u) := by
    intro ps u hps
    rw [step, parsed_orElse, hshort, Option.none_or]
    exact (parsed_bind_of_some haxis).trans <| (parsed_bind_of_some hnode).trans
      (parsed_bind_of_some hps.many)
  have hrepeats := repeats_predicates hrest.bracket predicates hpredicates
  unfold RereadsPart
  rw [rereadStep]
  cases hall : rereadAll predicates with
  | none =>
    rw [hall] at hrepeats
    obtain ⟨ps, _, hps, t, rfl⟩ := hrepeats
    exact ⟨_, t, hstep hps⟩
  | some ps =>
    rw [hall] at hrepeats
    exact hstep hrepeats

/-! ## Paths -/

theorem joined_cons (sep piece : List Char) (pieces : List (List Char)) :
    joined sep (piece :: pieces) = piece ++ (pieces.map (sep ++ ·)).flatten := by
  induction pieces generalizing piece with
  | nil => simp [joined]
  | cons next pieces ih => simp [joined, ih]

/-- The canonical text of steps behind a first one. -/
def furtherSteps (ss : List (Step Expr)) : List Char :=
  ((canonicalSteps ss).map (['/'] ++ ·)).flatten

theorem furtherSteps_cons (st : Step Expr) (ss : List (Step Expr)) :
    furtherSteps (st :: ss) = '/' :: (canonicalStep st ++ furtherSteps ss) := by
  simp [furtherSteps, canonicalSteps]

theorem joined_canonicalSteps (st : Step Expr) (ss : List (Step Expr)) :
    joined ['/'] (canonicalSteps (st :: ss)) = canonicalStep st ++ furtherSteps ss := by
  rw [canonicalSteps, joined_cons]
  rfl

theorem canonicalStep_cons (st : Step Expr) :
    ∃ c t, canonicalStep st = c :: t ∧ isNameStart c = true := by
  obtain ⟨axis, test, predicates⟩ := st
  obtain ⟨c, cs, hname, hc, -⟩ := isSimpleName_axis axis
  exact ⟨c, _, by rw [canonicalStep, hname]; rfl, hc⟩

theorem begins_step (st : Step Expr) : Begins (canonicalStep st) := by
  obtain ⟨c, t, heq, hc⟩ := canonicalStep_cons st
  rw [heq]
  exact begins_of_isNameStart hc t

theorem word_slashes {c : Char} (hc : c ≠ '/') (u : List Char) :
    Scan.word ['/', '/'] ('/' :: c :: u) = none := by
  simp [Scan.word, Scan.char, hc]

theorem separator_of_slash {c : Char} (hs : skipBlanks s = '/' :: c :: u) (hc : c ≠ '/') :
    (separator s).parsed = some ([], c :: u) := by
  have hdouble : ((do token (Scan.word ['/', '/']); pure [Step.anyDepth] :
      Rule (List (Step Expr))) s).parsed = none := by
    refine parsed_bind_of_none ?_
    rw [parsed_token, hs, word_slashes hc]
  have hsingle : (token (Scan.char '/') s).parsed = some ((), c :: u) := by
    rw [parsed_token, hs, char_cons]
  rw [separator, parsed_orElse, hdouble, Option.none_or]
  exact parsed_bind_of_some hsingle

theorem ne_slash_of_isNameStart {c : Char} (hc : isNameStart c = true) : c ≠ '/' := by
  rintro rfl
  exact absurd hc (by decide)

theorem separator_step (st : Step Expr) (hs : skipBlanks s = '/' :: (canonicalStep st ++ u)) :
    (separator s).parsed = some ([], canonicalStep st ++ u) := by
  obtain ⟨c, t, heq, hc⟩ := canonicalStep_cons st
  rw [heq, List.cons_append] at hs ⊢
  exact separator_of_slash hs (ne_slash_of_isNameStart hc)

theorem separator_of_notNext (h : NotNext '/' s) : (separator s).parsed = none := by
  have hchar := h.char
  have hword : Scan.word ['/', '/'] (skipBlanks s) = none :=
    word_refuses fun c hc heq => h (by rw [← heq]; exact hc)
  simp [separator, hchar, hword]

theorem endsStep_furtherSteps (ss : List (Step Expr)) (hrest : EndsStep rest) :
    EndsStep (furtherSteps ss ++ rest) := by
  cases ss with
  | nil => exact hrest
  | cons st ss =>
    rw [furtherSteps_cons]
    have hskip : ∀ u, skipBlanks ('/' :: u) = '/' :: u := skipBlanks_cons (by decide)
    exact ⟨noneInFront_cons (by decide) _, notNext_of_ne (hskip _) (by decide),
      notNext_of_ne (hskip _) (by decide), notNext_of_ne (hskip _) (by decide)⟩

/-- A separator and the step behind it. -/
def nextStep (inner : Rule Expr) : Rule (List (Step Expr)) := do
  let between ← separator
  let s ← step inner
  pure (between ++ [s])

theorem nextStep_of_some {st st' : Step Expr} (hs : skipBlanks s = '/' :: (canonicalStep st ++ u))
    (h : (step inner (canonicalStep st ++ u)).parsed = some (st', t)) :
    (nextStep inner s).parsed = some ([st'], t) :=
  (parsed_bind_of_some (separator_step st hs)).trans (parsed_bind_of_some h)

theorem nextStep_of_notNext (h : NotNext '/' s) : (nextStep inner s).parsed = none :=
  parsed_bind_of_none (separator_of_notNext h)

theorem notNext_slash_bracket (t : List Char) : NotNext '/' ('[' :: t) :=
  notNext_of_ne (skipBlanks_cons (by decide) t) (by decide)

theorem repeats_furtherSteps (hrest : EndsPath rest) (ss : List (Step Expr))
    (hss : ∀ st ∈ ss, ReadsStep inner st) :
    RepeatsOrStops (nextStep inner) (fun t => ∃ u, t = '[' :: u) (furtherSteps ss ++ rest)
      ((rereadSteps ss).map (·.map ([·]))) rest := by
  have htext (st : Step Expr) (ts : List (Step Expr)) : furtherSteps (st :: ts) ++ rest =
      '/' :: (canonicalStep st ++ (furtherSteps ts ++ rest)) := by
    rw [furtherSteps_cons, List.cons_append, List.append_assoc]
  have hskip (st : Step Expr) (ts : List (Step Expr)) :
      skipBlanks (furtherSteps (st :: ts) ++ rest) = _ :=
    (congrArg skipBlanks (htext st ts)).trans (skipBlanks_cons (by decide) _)
  have hstep {st : Step Expr} (hst : st ∈ ss) (ts : List (Step Expr)) :=
    step_canonical (hss st hst) ((begins_step st).skipBlanks _)
      (endsStep_furtherSteps ts hrest.toEndsStep)
  refine repeats_texts (fun st => (rereadStep st).map ([·]))
    (fun ss => (rereadSteps ss).map (·.map ([·]))) (furtherSteps · ++ rest) rfl ?_
    (nextStep_of_notNext hrest.slash) ss (fun st hst ts first hread => ?_) fun st hst ts hread => ?_
  · intro st ts
    rw [rereadSteps_cons]
    cases rereadStep st <;> cases rereadSteps ts <;> rfl
  · have hstep := hstep hst ts
    obtain ⟨st', hst', rfl⟩ := Option.map_eq_some_iff.mp hread
    rw [hst'] at hstep
    refine ⟨nextStep_of_some (hskip st ts) hstep, ?_⟩
    rw [htext]
    simp only [List.length_cons, List.length_append]
    omega
  · have hstep := hstep hst ts
    rw [Option.map_eq_none_iff.mp hread] at hstep
    obtain ⟨st', t, hstep⟩ := hstep
    refine ⟨_, _, .last (nextStep_of_some (hskip st ts) hstep) ?_
      (nextStep_of_notNext (notNext_slash_bracket t)), t, rfl⟩
    rw [htext]
    simp

theorem flatten_map_singleton {α : Type} (as : List α) : (as.map ([·])).flatten = as := by
  induction as with
  | nil => rfl
  | cons a as ih => simp [ih]

theorem relativePath_of_some {st : Step Expr} {further : List (List (Step Expr))}
    (hfirst : (step inner s).parsed = some (st, t)) (h : Repeats (nextStep inner) t further u) :
    (relativePath inner s).parsed = some (st :: further.flatten, u) :=
  (parsed_bind_of_some hfirst).trans (parsed_bind_of_some h.many)

theorem relativePath_canonical {st : Step Expr} {ss : List (Step Expr)}
    (hss : ∀ s ∈ st :: ss, ReadsStep inner s)
    (hs : skipBlanks s = joined ['/'] (canonicalSteps (st :: ss)) ++ rest)
    (hrest : EndsPath rest) :
    RereadsPart (relativePath inner s).parsed (rereadSteps (st :: ss)) rest := by
  rw [joined_canonicalSteps, List.append_assoc] at hs
  have hstep := step_canonical (hss st (by simp)) hs
    (endsStep_furtherSteps ss hrest.toEndsStep)
  have hfurther := repeats_furtherSteps hrest ss fun p hp => hss p (by simp [hp])
  unfold RereadsPart
  rw [rereadSteps]
  cases hread : rereadStep st with
  | none =>
    rw [hread] at hstep
    obtain ⟨st', t, hstep⟩ := hstep
    exact ⟨_, t, relativePath_of_some hstep
      (.stop (nextStep_of_notNext (notNext_slash_bracket t)))⟩
  | some st' =>
    rw [hread] at hstep
    cases hall : rereadSteps ss with
    | none =>
      rw [hall] at hfurther
      obtain ⟨read, _, hread, t, rfl⟩ := hfurther
      exact ⟨_, t, relativePath_of_some hstep hread⟩
    | some read =>
      rw [hall] at hfurther
      have hpath := relativePath_of_some hstep hfurther
      rwa [flatten_map_singleton] at hpath

end ReactiveForm.Expr
