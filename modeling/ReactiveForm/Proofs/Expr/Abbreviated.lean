import ReactiveForm.Proofs.Expr.Arrangement
import ReactiveForm.Proofs.Expr.ShortForm

/-!
# Abbreviated texts

Each rule of the grammar is followed backwards: where the tokens that it leaves are arranged, so are
those that it was given. The tokens of a text that is read are arranged from end to beginning, and
every abbreviation of such a text is read as the same expression.
-/

set_option autoImplicit false

namespace ReactiveForm.Expr

open Rule

variable {α : Type} {place place' : Place} {s t u v w : List Char} {c : Char} {inner : Rule Expr}

/-! ## Tokens that are read -/

/-- The tokens of the text may come at the place. -/
def Sits (place : Place) (s : List Char) : Prop :=
  Arranged place (tokens s)

theorem Sits.of_next (hw : Next (c :: w) s t) (hplace : place ≠ .test) (hc : c ≠ ':')
    (hopens : place = .operator → c ≠ '(' ∧ c.isDigit = false)
    (h : Sits (place.after (c :: w)) t) : Sits place s := by
  unfold Sits
  rw [hw.tokens]
  exact .token hplace hc hopens h

theorem GoesOn.exists_token {p : Char → Bool} (h : GoesOn p s) :
    ∃ c w ts, tokens s = (c :: w) :: ts ∧ p c = true := by
  obtain ⟨c, t, hs, hc⟩ := h
  obtain ⟨w, u, hw, -⟩ := exists_next hs
  exact ⟨c, w, _, hw.tokens, hc⟩

theorem Sits.not_colon (h : Sits place s) : ¬ GoesOn colon s := by
  intro hgoes
  obtain ⟨c, w, ts, hs, hc⟩ := hgoes.exists_token
  rw [Sits, hs] at h
  exact h.head_ne_colon (by simpa [colon] using hc)

theorem Sits.not_digit (h : Sits .operator s) : ¬ GoesOn Char.isDigit s := by
  intro hgoes
  obtain ⟨c, w, ts, hs, hc⟩ := hgoes.exists_token
  rw [Sits, hs] at h
  cases h.head_operator.2.symm.trans hc

theorem tracesBack_token {p : Scan α} (hp : Whole p) (hempty : p [] = none) (hplace : place ≠ .test)
    (h : ∀ c w r, p (c :: w) = some r → c ≠ ':' ∧
      (place = .operator → c ≠ '(' ∧ c.isDigit = false) ∧ place.after (c :: w) = place') :
    (token p).TracesBack (Sits place) fun _ => Sits place' := by
  intro s a t hread ht
  rw [parsed_token] at hread
  obtain ⟨w, v, hw, hcw⟩ := hp.exists_next hempty hread
  obtain ⟨c, w, rfl⟩ := List.exists_cons_of_ne_nil hw.kind.ne_nil
  obtain ⟨hc, hopens, hafter⟩ := h c w _ hcw
  exact .of_next hw hplace hc hopens (hafter ▸ ht)

theorem tracesBack_char (hc : c ∈ solid) (hplace : place ≠ .test)
    (hopens : place = .operator → c ≠ '(') :
    (token (Scan.char c)).TracesBack (Sits place) fun _ => Sits (place.after [c]) := by
  refine tracesBack_token (Whole.char hc) rfl hplace fun d w r hread => ?_
  obtain rfl : d = c := by
    by_contra hd
    rw [Scan.char, if_neg hd] at hread
    cases hread
  obtain ⟨hcolon, hdigit⟩ : d ≠ ':' ∧ d.isDigit = false := by
    simp only [solid, List.mem_cons, List.not_mem_nil, or_false] at hc
    rcases hc with rfl | rfl | rfl | rfl | rfl | rfl | rfl | rfl | rfl | rfl | rfl <;> decide
  exact ⟨hcolon, fun h => ⟨hopens h, hdigit⟩, rfl⟩

theorem tracesBack_mark (hc : c ∈ solid) (hplace : place ≠ .test)
    (hopens : place = .operator → c ≠ '(') :
    (mark c).TracesBack (Sits place) fun _ => Sits (place.after [c]) := by
  intro s a t h ht
  refine tracesBack_char hc hplace hopens s a t ?_ ht
  rwa [parsed_token]

/-- Behind an expression, where no further step follows. -/
def Ended (s : List Char) : Prop :=
  Sits .operator s ∧ NotNext '/' s

theorem Ended.sits (h : Ended s) : Sits .operator s :=
  h.1

/-- Only a separator starts with a slash. -/
theorem tracesBack_ended {after : α → List Char → Prop} {p : Rule α}
    (hp : p.TracesBack (Sits .operator) after)
    (hslash : ∀ s t, skipBlanks s = '/' :: t → (p s).parsed = none) : p.TracesBack Ended after := by
  intro s a t h ht
  refine ⟨hp s a t h ht, fun hnext => ?_⟩
  obtain ⟨r, hs⟩ := List.head?_eq_some_iff.mp hnext
  cases (hslash s r hs).symm.trans h

theorem tracesBack_mark_ended (hc : c ∈ solid) (hopens : c ≠ '(') :
    (mark c).TracesBack Ended fun _ => Sits (Place.operator.after [c]) := by
  refine tracesBack_ended (tracesBack_mark hc (by decide) fun _ => hopens) fun s t hs => ?_
  refine (notNext_of_ne hs ?_).mark
  rintro rfl
  revert hc
  decide

/-! ## Literals and variables -/

theorem Whole.orElse {p q : Scan α} (hp : Whole p) (hq : Whole q) : Whole (Scan.orElse p q) := by
  intro w u h
  simp only [Scan.orElse, hp w u h, hq w u h]
  cases p w <;> rfl

theorem stringLiteral_tracesBack :
    stringLiteral.TracesBack (Sits .operand) fun _ => Sits .operator := by
  refine TracesBack.map (tracesBack_token ((Whole.quoted (by decide)).orElse
    (Whole.quoted (by decide))) rfl (by decide) fun c w r h => ?_) Expr.text
  have hc : c = '"' ∨ c = '\'' := by
    simp only [Scan.orElse, Option.or_eq_some_iff] at h
    by_contra hne
    simp only [not_or] at hne
    rw [quoted_of_ne hne.1, quoted_of_ne hne.2] at h
    simp at h
  rcases hc with rfl | rfl <;> exact ⟨by decide, by simp, rfl⟩

theorem numberLiteral_tracesBack :
    numberLiteral.TracesBack (Sits .operand) fun _ => Sits .operator := by
  refine TracesBack.map (tracesBack_token Whole.numeral rfl (by decide) fun c w r h => ?_)
    Expr.number
  by_cases hdigit : c.isDigit = true
  · refine ⟨?_, by simp, after_of_isDigit hdigit _ w⟩
    rintro rfl
    exact absurd hdigit (by decide)
  · by_cases hdot : c = '.'
    · subst hdot
      exact ⟨by decide, by simp, rfl⟩
    · rw [numeral_of_not_digit (by simpa using hdigit) hdot] at h
      cases h

theorem variableReference_tracesBack :
    variableReference.TracesBack (Sits .operand) fun _ => Sits .operator := by
  intro s e t h ht
  rw [variableReference_eq, Option.map_eq_some_iff] at h
  obtain ⟨⟨name, u⟩, hname, heq⟩ := h
  obtain ⟨-, rfl⟩ : Expr.variable name = e ∧ u = t := by simpa using heq
  obtain ⟨w, v, hw, hread⟩ := Whole.variableName.exists_next rfl hname
  obtain ⟨c, w, rfl⟩ := List.exists_cons_of_ne_nil hw.kind.ne_nil
  obtain rfl : c = '$' := by
    by_contra hc
    rw [variableName_of_ne hc] at hread
    cases hread
  exact .of_next hw (by decide) (by decide) (by simp) ht

/-! ## Steps -/

theorem next_of_nameTest {test : NodeTest} (h : nameTest (skipBlanks s) = some (test, t)) :
    Next test.canonical s t ∧ nameTest test.canonical = some (test, []) := by
  have hw : Next test.canonical s t := by
    unfold Next lexeme
    simp only [List.foldr_cons, Scan.orElse, Scan.map, h]
    rfl
  have hread := hw.scan Whole.nameTest
  rw [h, eq_comm, Option.map_eq_some_iff] at hread
  obtain ⟨⟨test', v⟩, hread, heq⟩ := hread
  obtain rfl : test' = test := by simpa using heq
  have hv := List.self_eq_append_right.mp (nameTest_sound hread).1
  rw [hv] at hread
  exact ⟨hw, hread⟩

theorem not_mark_of_colon {a : Unit} (hc : c ≠ ':') :
    (mark c (':' :: s)).parsed ≠ some (a, t) := by
  rw [(notNext_of_ne (skipBlanks_cons (by decide) s) hc.symm).mark]
  simp

theorem ahead_of_kindTest {test : NodeTest} (h : (kindTest s).parsed = some (test, t)) :
    ∃ name ∈ nodeTypes.map Prod.fst, Ahead [name.toList, ['('], [')']] s t := by
  simp only [kindTest, parsed_bind, parsed_token, parsed_pure, Option.bind_eq_some_iff] at h
  obtain ⟨⟨test, u⟩, htype, ⟨_, v⟩, hopen, ⟨_, x⟩, hclose, heq⟩ := h
  obtain ⟨-, rfl⟩ := Prod.mk.inj (Option.some.inj heq)
  rcases looksUp_nodeType.exists_next rfl htype with ⟨w, hw, -, hread⟩ | ⟨d, r, rfl, -⟩
  · obtain ⟨test', hlookup, heq⟩ := Option.map_eq_some_iff.mp hread
    have hrun : w.takeWhile isNameChar = w := by
      have hsplit := List.takeWhile_append_dropWhile (p := isNameChar) (l := w)
      rwa [(Prod.mk.inj heq).2, List.append_nil] at hsplit
    rw [hrun] at hlookup
    obtain ⟨before, after, hmem, -⟩ := List.lookup_eq_some_iff.mp hlookup
    refine ⟨String.ofList w, ?_, u, ?_, v, next_of_mark (by decide) hopen, x,
      next_of_mark (by decide) hclose, rfl⟩
    · rw [hmem]
      simp
    · rwa [String.toList_ofList]
  · exact absurd hopen (not_mark_of_colon (by decide))

theorem ahead_of_namedAxis {axis : Axis} (h : (namedAxis s).parsed = some (axis, t)) :
    ∃ w, StartsName w ∧ Ahead [w, [':', ':']] s t := by
  simp only [namedAxis, parsed_bind, parsed_token, parsed_pure, Option.bind_eq_some_iff] at h
  obtain ⟨⟨axis, u⟩, hname, ⟨_, v⟩, hcolons, heq⟩ := h
  obtain ⟨-, rfl⟩ := Prod.mk.inj (Option.some.inj heq)
  rcases looksUp_axisName.exists_next rfl hname with ⟨w, hw, hstarts, -⟩ | ⟨d, r, rfl, hd⟩
  · exact ⟨w, hstarts, u, hw, v, next_of_pair (by decide) hcolons, rfl⟩
  · rw [skipBlanks_cons (by decide)] at hcolons
    simp [Scan.word, Scan.char, hd] at hcolons

theorem nodeTest_tracesBack (hplace : place ≠ .operator) :
    nodeTest.TracesBack (Sits place) fun _ => Sits .operator := by
  refine TracesBack.orElse ?_ ?_
  · intro s test t h ht
    obtain ⟨name, hname, hahead⟩ := ahead_of_kindTest h
    have hstarts := startsName_nodeType hname
    unfold Sits
    rw [hahead.tokens]
    -- what stands before a bracket is a function where an operand is due, a kind of node after an
    -- axis
    cases place with
    | operand => exact .call hstarts (.token (by decide) (by decide) (by simp) ht)
    | test => exact .kind hname ht
    | operator => exact absurd rfl hplace
  · intro s test t h ht
    rw [parsed_token] at h
    obtain ⟨hw, hread⟩ := next_of_nameTest h
    cases place with
    | operand =>
      obtain ⟨c, w, hcanonical, hc⟩ := nameTest_head hread
      have hafter := after_of_nameTest hread hplace
      rw [hcanonical] at hw hafter
      refine .of_next hw (by decide) ?_ (by simp) (hafter ▸ ht)
      rintro rfl
      revert hc
      decide
    | test =>
      unfold Sits
      rw [hw.tokens]
      exact .test hread ht
    | operator => exact absurd rfl hplace

/-- Where a node test may come: behind an axis, or at the step itself. -/
def testPlace : Option Axis → Place
  | none => .operand
  | some _ => .test

theorem axisOf_tracesBack :
    (Rule.optional axisOf).TracesBack (Sits .operand) fun axis => Sits (testPlace axis) := by
  refine TracesBack.optional (TracesBack.orElse ?_ ?_) fun _ h => h
  · intro s axis t h ht
    obtain ⟨w, hstarts, hahead⟩ := ahead_of_namedAxis h
    unfold Sits
    rw [hahead.tokens]
    exact .axis hstarts ht
  · exact TracesBack.map (tracesBack_char (c := '@') (by decide) (by decide) (by simp)) _

theorem shortStep_tracesBack :
    shortStep.TracesBack (Sits .operand) fun _ => Sits .operator := by
  intro s st t h ht
  rw [shortStep_eq, Option.or_eq_some_iff] at h
  rcases h with h | ⟨hpair, h⟩
  · obtain ⟨⟨_, u⟩, hword, heq⟩ := Option.map_eq_some_iff.mp h
    obtain ⟨-, rfl⟩ := Prod.mk.inj heq
    exact .of_next (next_of_pair (by decide) hword) (by decide) (by decide) (by simp) ht
  · obtain ⟨⟨_, u⟩, hchar, heq⟩ := Option.map_eq_some_iff.mp h
    obtain ⟨-, rfl⟩ := Prod.mk.inj heq
    obtain ⟨w, x, hw, rfl⟩ := exists_next_of_char hchar
    -- the point read is a token of its own: no pair of points stands there, and no digit follows
    have halone : w = [] := by
      rcases hw.kind.head with hname | hdigit | hmark | ⟨-, hne, hdigits⟩ | hmem | ⟨hnil, -⟩
      · exact absurd hname (by decide)
      · exact absurd hdigit (by decide)
      · exact absurd hmark (by decide)
      · obtain ⟨d, ds, rfl⟩ := List.exists_cons_of_ne_nil hne
        have hd := hdigits d List.mem_cons_self
        exact absurd ⟨d, _, skipBlanks_cons (isPadding_of_isDigit hd) _, hd⟩ ht.not_digit
      · obtain rfl : w = ['.'] := by simpa [pairs] using hmem
        rw [hw.scan (Whole.word (by decide))] at hpair
        cases hpair
      · exact hnil
    subst halone
    exact .of_next hw (by decide) (by decide) (by simp) ht

/-- A rule for expressions is followed back from where no further step comes. -/
def TracedInside (inner : Rule Expr) : Prop :=
  inner.TracesBack (Sits .operand) fun _ => Ended

theorem enclosed_tracesBack {a b : Char} (ha : a ∈ solid) (hb : b ∈ solid) (hplace : place ≠ .test)
    (hopens : place = .operator → a ≠ '(') (hcloses : b ≠ '(')
    (hinside : place.after [a] = .operand) (hinner : TracedInside inner) :
    (enclosed a b inner).TracesBack (Sits place) fun _ => Sits (Place.operator.after [b]) := by
  intro s e t h ht
  rw [parsed_enclosed] at h
  have hopen := tracesBack_mark ha hplace hopens
  rw [hinside] at hopen
  have hrest := hinner.bind fun e => (tracesBack_mark_ended hb hcloses).map fun _ => e
  exact (hopen.bind fun _ => hrest) s e t h ht

theorem predicate_tracesBack (hinner : TracedInside inner) :
    (predicate inner).TracesBack (Sits .operator) fun _ => Sits .operator :=
  enclosed_tracesBack (a := '[') (b := ']') (by decide) (by decide) (by decide) (by simp)
    (by decide) rfl hinner

theorem step_tracesBack (hinner : TracedInside inner) :
    (step inner).TracesBack (Sits .operand) fun _ => Sits .operator := by
  refine shortStep_tracesBack.orElse (axisOf_tracesBack.bind fun axis => ?_)
  have htest : nodeTest.TracesBack (Sits (testPlace axis)) fun _ => Sits .operator := by
    refine nodeTest_tracesBack ?_
    cases axis <;> simp [testPlace]
  exact htest.bind fun test => (predicate_tracesBack hinner).many.map _

/-! ## Paths -/

theorem next_of_slash {a : Unit} (hpair : Scan.word ['/', '/'] (skipBlanks s) = none)
    (h : Scan.char '/' (skipBlanks s) = some (a, t)) : Next ['/'] s t := by
  obtain ⟨w, u, hw, rfl⟩ := exists_next_of_char h
  rcases hw.kind.slash with rfl | rfl
  · exact hw
  · cases hpair.symm.trans (word_of_slashes hw)

theorem separator_tracesBack :
    separator.TracesBack (Sits .operator) fun _ => Sits .operand := by
  intro s between t h ht
  rw [separator_eq, Option.or_eq_some_iff] at h
  rcases h with h | ⟨hpair, h⟩
  · obtain ⟨⟨_, u⟩, hword, heq⟩ := Option.map_eq_some_iff.mp h
    obtain ⟨-, rfl⟩ := Prod.mk.inj heq
    exact .of_next (next_of_pair (by decide) hword) (by decide) (by decide) (by decide) ht
  · obtain ⟨⟨_, u⟩, hchar, heq⟩ := Option.map_eq_some_iff.mp h
    obtain ⟨-, rfl⟩ := Prod.mk.inj heq
    have hslash := next_of_slash (Option.map_eq_none_iff.mp hpair) hchar
    exact .of_next hslash (by decide) (by decide) (by decide) ht

theorem relativePath_tracesBack (hinner : TracedInside inner) :
    (relativePath inner).TracesBack (Sits .operand) fun _ => Sits .operator := by
  refine (step_tracesBack hinner).bind fun first => TracesBack.map (TracesBack.many ?_) _
  exact separator_tracesBack.bind fun between => (step_tracesBack hinner).map _

/-- Where no step is read, only a name or a star could tell an operand from what goes on. -/
theorem Sits.operand_of_step (h : Sits .operator s) (hstep : (step inner s).parsed = none) :
    Sits .operand s := by
  unfold Sits at h ⊢
  rcases hs : skipBlanks s with _ | ⟨c, t⟩
  · rw [tokens_of_blank hs]
    exact .nil (by decide)
  obtain ⟨w, u, hw, -⟩ := exists_next hs
  rw [hw.tokens] at h ⊢
  cases h with
  | token _ hc _ hrest =>
    by_cases hname : isNameStart c = true ∨ c = '*'
    · obtain ⟨x, hx⟩ := colons_of_refused hw hname hstep
      rw [hx.tokens] at hrest
      exact absurd rfl hrest.head_ne_colon
    · refine .token (by decide) hc (by simp) ?_
      rwa [Place.after_eq .operand .operator hname]

theorem absolutePath_tracesBack (hinner : TracedInside inner) :
    (absolutePath inner).TracesBack (Sits .operand) fun _ => Ended := by
  intro s e t h ht
  rcases hpair : Scan.word ['/', '/'] (skipBlanks s) with _ | ⟨_, u⟩
  · rcases hslash : Scan.char '/' (skipBlanks s) with _ | ⟨_, u⟩
    · rw [absolutePath, parsed_orElse, parsed_bind_of_none (by rw [parsed_token, hpair]),
        parsed_bind_of_none (by rw [parsed_token, hslash])] at h
      cases h
    · have hnext := next_of_slash hpair hslash
      have hsteps : Sits .operand u := by
        rw [absolutePath_of_slash hpair hslash, Option.map_eq_some_iff] at h
        obtain ⟨⟨steps, v⟩, hread, heq⟩ := h
        obtain ⟨-, rfl⟩ := Prod.mk.inj heq
        rcases hr : (relativePath inner u).parsed with _ | ⟨ss, x⟩
        · rw [optional_of_none hr] at hread
          obtain ⟨-, rfl⟩ := Prod.mk.inj (Option.some.inj hread)
          exact ht.sits.operand_of_step (step_of_relativePath hr)
        · rw [optional_of_some hr] at hread
          obtain ⟨-, rfl⟩ := Prod.mk.inj (Option.some.inj hread)
          exact relativePath_tracesBack hinner u ss x hr ht.sits
      exact .of_next hnext (by decide) (by decide) (by simp) hsteps
  · rw [absolutePath_of_slashes hpair, Option.or_eq_some_iff] at h
    rcases h with h | ⟨-, h⟩
    · obtain ⟨⟨steps, v⟩, hread, heq⟩ := Option.map_eq_some_iff.mp h
      obtain ⟨-, rfl⟩ := Prod.mk.inj heq
      exact .of_next (next_of_pair (by decide) hpair) (by decide) (by decide) (by simp)
        (relativePath_tracesBack hinner u steps v hread ht.sits)
    · obtain ⟨-, rfl⟩ := Prod.mk.inj (Option.some.inj h)
      -- two slashes without a step behind them: the first was read as a root, the second is left
      -- over
      exact absurd (congrArg List.head? (skipBlanks_cons (c := '/') (by decide) u)) ht.2

/-! ## Operands -/

theorem nextArgument_tracesBack (hinner : TracedInside inner) :
    (nextArgument inner).TracesBack Ended fun _ => Ended :=
  (tracesBack_mark_ended (c := ',') (by decide) (by decide)).bind fun _ => hinner

theorem callRest_tracesBack (hinner : TracedInside inner) (name : String) :
    (callRest inner name).TracesBack (Sits .operand) fun _ => Sits .operator := by
  intro s e t h ht
  rcases hr : (inner s).parsed with _ | ⟨a, u⟩
  · rw [callRest_of_none hr] at h
    have hclose : (mark ')').TracesBack (Sits .operand) fun _ => Sits .operator :=
      tracesBack_mark (c := ')') (by decide) (by decide) (by simp)
    exact hclose.map (fun _ => Expr.call name []) s e t h ht
  · rw [callRest_of_first hr] at h
    have hclose := tracesBack_mark_ended (c := ')') (by decide) (by decide)
    have hmore : (moreArguments inner name a).TracesBack Ended fun _ => Sits .operator :=
      (nextArgument_tracesBack hinner).many.bind fun _ => hclose.map _
    exact hinner s a u hr (hmore u e t h ht)

theorem functionCall_tracesBack (hinner : TracedInside inner) :
    (functionCall inner).TracesBack (Sits .operand) fun _ => Sits .operator := by
  intro s e t h ht
  rw [parsed_functionCall] at h
  split at h
  · cases h
  rw [namedCall_eq] at h
  simp only [parsed_bind, parsed_token, skipBlanks_skipBlanks, Option.bind_eq_some_iff] at h
  obtain ⟨⟨name, u⟩, hname, ⟨_, v⟩, hopen, hrest⟩ := h
  rcases looksUp_qualifiedName.exists_next rfl hname with ⟨w, hw, hstarts, -⟩ | ⟨d, r, rfl, -⟩
  · have hargs := callRest_tracesBack hinner name v e t hrest ht
    unfold Sits
    rw [hw.tokens, (next_of_mark (by decide) hopen).tokens]
    exact .call hstarts hargs
  · exact absurd hopen (not_mark_of_colon (by decide))

theorem primary_tracesBack (hinner : TracedInside inner) :
    (primary inner).TracesBack (Sits .operand) fun _ => Sits .operator :=
  variableReference_tracesBack.orElse <|
    (enclosed_tracesBack (a := '(') (b := ')') (by decide) (by decide) (by decide) (by simp)
      (by decide) rfl hinner).orElse <|
    stringLiteral_tracesBack.orElse <| numberLiteral_tracesBack.orElse
      (functionCall_tracesBack hinner)

theorem pathFrom_tracesBack (hinner : TracedInside inner) (e : Expr) :
    (pathFrom inner e).TracesBack (Sits .operator) fun _ => Sits .operator := by
  have hsteps : (continuation inner).TracesBack (Sits .operator) fun _ => Sits .operator :=
    separator_tracesBack.bind fun between => (relativePath_tracesBack hinner).map _
  have hoptional : (Rule.optional (continuation inner)).TracesBack (Sits .operator)
      fun _ => Sits .operator := TracesBack.optional hsteps fun _ h => h
  refine hoptional.bind fun steps => ?_
  cases steps <;> exact tracesBack_pure fun _ h => h

theorem pathExpr_tracesBack (hinner : TracedInside inner) :
    (pathExpr inner).TracesBack (Sits .operand) fun _ => Ended := by
  have hfilter : (filterPath inner).TracesBack (Sits .operand) fun _ => Sits .operator :=
    (primary_tracesBack hinner).bind fun base => (predicate_tracesBack hinner).many.bind fun ps =>
      pathFrom_tracesBack hinner (filtered base ps)
  have hcontext : (contextPath inner).TracesBack (Sits .operand) fun _ => Sits .operator :=
    (relativePath_tracesBack hinner).map _
  exact (absolutePath_tracesBack hinner).orElse <|
    (hfilter.orElse hcontext).imp (fun _ h => h) fun _ _ h => h.sits

theorem signedExpr_tracesBack (hinner : TracedInside inner) :
    (signedExpr inner).TracesBack (Sits .operand) fun _ => Ended := by
  have hbar : (token (Scan.char '|')).TracesBack Ended fun _ => Sits .operand := by
    intro s a t h ht
    rw [parsed_token] at h
    exact tracesBack_mark_ended (c := '|') (by decide) (by decide) s a t h ht
  have hsign : signRule.TracesBack (Sits .operand) fun _ => Sits .operand :=
    tracesBack_char (c := '-') (by decide) (by decide) (by simp)
  have hunion : (unionExpr inner).TracesBack (Sits .operand) fun _ => Ended :=
    (pathExpr_tracesBack hinner).bind fun first =>
      (hbar.bind fun _ => pathExpr_tracesBack hinner).many.map _
  exact hsign.many.bind fun signs => hunion.map _

/-! ## Operators -/

variable {m : String} {op : Operator} {o : Rule Operator}

theorem solidSign_tracesBack (hm : m.toList = [c]) (hc : c ∈ solid) (hopens : c ≠ '(')
    (hafter : Place.operator.after [c] = .operand) :
    (sign m op).TracesBack (Sits .operator) fun _ => Sits .operand := by
  have hword : Scan.word [c] = Scan.char c := funext (word_singleton c)
  have hread : (token (Scan.char c)).TracesBack (Sits .operator) fun _ => Sits .operand := by
    rw [← hafter]
    exact tracesBack_char hc (by decide) fun _ => hopens
  rw [sign, hm, hword]
  exact hread.map fun _ => op

/-- The comparisons that are written with one character or with two. -/
theorem Sits.of_pair {a : Unit} (hc : c ∈ ['!', '<', '>'])
    (h : Scan.word [c, '='] (skipBlanks s) = some (a, t)) (ht : Sits .operand t) :
    Sits .operator s := by
  simp only [List.mem_cons, List.not_mem_nil, or_false] at hc
  rcases hc with rfl | rfl | rfl <;>
    exact .of_next (next_of_pair (by decide) h) (by decide) (by decide) (by decide) ht

theorem Sits.of_half {a : Unit} (hc : c ∈ ['<', '>'])
    (hpair : Scan.word [c, '='] (skipBlanks s) = none)
    (h : Scan.word [c] (skipBlanks s) = some (a, t)) (ht : Sits .operand t) :
    Sits .operator s := by
  rw [word_singleton] at h
  obtain ⟨w, u, hw, rfl⟩ := exists_next_of_char h
  have hnot : w ≠ ['='] := by
    rintro rfl
    rw [hw.eq] at hpair
    simp [Scan.word, Scan.char] at hpair
  simp only [List.mem_cons, List.not_mem_nil, or_false] at hc
  rcases hc with rfl | rfl <;>
  · obtain rfl := hw.kind.eq_nil_of_half (by decide) hnot
    exact .of_next hw (by decide) (by decide) (by decide) ht

theorem operatorName_tracesBack (hm : IsSimpleName m.toList) :
    (operatorName m op).TracesBack (Sits .operator) fun _ => Sits .operand := by
  intro s a t h ht
  rw [operatorName_eq, Option.map_eq_some_iff] at h
  obtain ⟨⟨b, u⟩, hread, heq⟩ := h
  obtain ⟨-, rfl⟩ := Prod.mk.inj heq
  have hempty : keyword m [] = none := by
    obtain ⟨c, cs, hcs, -⟩ := hm
    rw [keyword, hcs]
    rfl
  rcases (looksUp_keyword hm).exists_next hempty hread with ⟨w, hw, hstarts, -⟩ | ⟨d, r, rfl, -⟩
  · have hafter := hstarts.after_operator
    obtain ⟨c, cs, rfl, hc⟩ := hstarts
    exact .of_next hw (by decide) (StartsName.head_ne ⟨c, cs, rfl, hc⟩ (by decide))
      (fun _ => ⟨StartsName.head_ne ⟨c, cs, rfl, hc⟩ (by decide), not_isDigit_of_isNameStart hc⟩)
      (hafter ▸ ht)
  · exact absurd ⟨':', _, skipBlanks_cons (by decide) _, rfl⟩ ht.not_colon

theorem operator_tracesBack (ho : o ∈ operators) :
    o.TracesBack (Sits .operator) fun _ => Sits .operand := by
  -- the operators written as words differ in nothing but the word
  have hname : ∀ {m : String} {op : Operator}, m ∈ ["or", "and", "div", "mod"] →
      (operatorName m op).TracesBack (Sits .operator) fun _ => Sits .operand := by
    intro m op hm
    simp only [List.mem_cons, List.not_mem_nil, or_false] at hm
    rcases hm with rfl | rfl | rfl | rfl <;>
      exact operatorName_tracesBack (isSimpleName_of_read rfl)
  simp only [operators, List.mem_cons, List.not_mem_nil, or_false] at ho
  rcases ho with rfl | rfl | rfl | rfl | rfl | rfl
  · exact hname (by simp)
  · exact hname (by simp)
  · refine (solidSign_tracesBack (c := '=') rfl (by decide) (by decide) rfl).orElse ?_
    intro s op t h ht
    rw [sign_eq, Option.map_eq_some_iff] at h
    obtain ⟨⟨_, u⟩, hread, heq⟩ := h
    obtain ⟨-, rfl⟩ := Prod.mk.inj heq
    exact .of_pair (c := '!') (by decide) hread ht
  · intro s op t h ht
    simp only [orderOperator, parsed_orElse, sign_eq, Option.or_eq_some_iff,
      Option.map_eq_some_iff, Option.map_eq_none_iff] at h
    rcases h with ⟨⟨_, u⟩, h, heq⟩ | ⟨hle, ⟨⟨_, u⟩, h, heq⟩ | ⟨-, ⟨⟨_, u⟩, h, heq⟩ |
      ⟨hge, ⟨_, u⟩, h, heq⟩⟩⟩ <;> obtain ⟨-, rfl⟩ := Prod.mk.inj heq
    · exact .of_pair (c := '<') (by decide) h ht
    · exact .of_half (c := '<') (by decide) hle h ht
    · exact .of_pair (c := '>') (by decide) h ht
    · exact .of_half (c := '>') (by decide) hge h ht
  · exact (solidSign_tracesBack (c := '+') rfl (by decide) (by decide) rfl).orElse
      (solidSign_tracesBack (c := '-') rfl (by decide) (by decide) rfl)
  · exact (solidSign_tracesBack (c := '*') rfl (by decide) (by decide) rfl).orElse <|
      (hname (by simp)).orElse (hname (by simp))

/-! ## Texts that are read -/

theorem chain_tracesBack {p : Rule Expr} (ho : o ∈ operators) (hp : TracedInside p) :
    TracedInside (chain o p) := by
  have hop : o.TracesBack Ended fun _ => Sits .operand :=
    tracesBack_ended (operator_tracesBack ho) fun s t hs => operators_refuse_slash hs ho
  exact hp.bind fun first => (hop.bind fun op => hp.map _).many.map _

theorem levels_tracesBack {p : Rule Expr} (hp : TracedInside p) :
    ∀ os : List (Rule Operator), (∀ o ∈ os, o ∈ operators) → TracedInside (os.foldr chain p) := by
  intro os
  induction os with
  | nil => exact fun _ => hp
  | cons o os ih =>
    intro hos
    exact chain_tracesBack (hos o (by simp)) (ih fun q hq => hos q (by simp [hq]))

theorem expr_tracesBack (depth : Nat) : TracedInside (expr depth) := by
  induction depth with
  | zero =>
    intro s e t h
    cases h
  | succ depth ih => exact levels_tracesBack (signedExpr_tracesBack ih) operators fun _ ho => ho

/-- The tokens of a text that is read are arranged. -/
theorem arranged_of_read {text : String} {e : Expr} (h : read text = .ok e) :
    Arranged .operand (tokens text.toList) := by
  obtain ⟨⟨a, t⟩, hread, -⟩ := Option.map_eq_some_iff.mp (read_eq_ok_iff.mp h)
  simp only [whole, parsed_bind, Option.bind_eq_some_iff] at hread
  obtain ⟨⟨b, u⟩, hexpr, ⟨_, v⟩, hend, -⟩ := hread
  rw [endOfText_eq] at hend
  split at hend
  next hblank =>
    refine expr_tracesBack _ _ b u hexpr ⟨?_, notNext_of_nil hblank⟩
    unfold Sits
    rw [tokens_of_blank hblank]
    exact .nil (by decide)
  · cases hend

/-- What the canonical text of an expression is read as, every abbreviation of it is read as, with
whatever blanks between its tokens. -/
theorem read_of_abbreviates {e a : Expr} {text : String} (hread : read e.toText = .ok a)
    (h : Abbreviates (tokens e.toText.toList) (tokens text.toList)) : read text = .ok a :=
  read_of_shortens hread (h.fits.1 .operand (arranged_of_read hread))

theorem read_of_abbreviates_item :
    let e := Expr.path .root [Step.anyDepth,
      ⟨.child, .name "item", [.path .context [⟨.attributes, .name "id", []⟩]]⟩,
      ⟨.parent, .node, []⟩, ⟨.self, .node, []⟩]
    e.toText = "/descendant-or-self::node()/child::item[attribute::id]/parent::node()/self::node()" ∧
      read e.toText = .ok e ∧ read "// item [ @ id ]\n/../\t." = .ok e := by
  intro e
  have htext : e.toText =
      "/descendant-or-self::node()/child::item[attribute::id]/parent::node()/self::node()" := by
    decide +kernel
  have hread : read e.toText = .ok e := by
    have hproper : e.Proper := by
      simp only [e, Proper, ProperStart, ProperSteps, ProperStep, AllProper, NodeTest.Proper,
        Step.anyDepth, List.isEmpty_cons, true_and, and_true]
      exact ⟨.inl (isSimpleName_of_read rfl), .inl (isSimpleName_of_read rfl)⟩
    have hwritten : e.Written := by
      refine ⟨hproper, fun x hx => ?_⟩
      simp [e, parts, partsOfStart, partsOfSteps, partsOfStep, partsOfAll, Step.anyDepth] at hx
    rw [read_eq_ok_iff, ← toOption_read, read_toText hwritten]
    rfl
  have hfull : tokens e.toText.toList =
      tokens "/descendant-or-self::node()/".toList ++ (tokens "child::".toList ++
        "item".toList :: ['['] :: (tokens "attribute::".toList ++
          "id".toList :: [']'] :: ['/'] :: (tokens "parent::node()".toList ++
            ['/'] :: (tokens "self::node()".toList ++ [])))) := by
    rw [htext]
    decide +kernel
  have hshort : tokens "// item [ @ id ]\n/../\t.".toList =
      [['/', '/'], "item".toList, ['['], ['@'], "id".toList, [']'], ['/'], ['.', '.'], ['/'],
        ['.']] := by
    decide +kernel
  refine ⟨htext, hread, read_of_abbreviates hread ?_⟩
  rw [hfull, hshort]
  refine .anyDepth <| .child <| .token <| .token <| .attributes <| .token <| .token <| .token ?_
  exact .parent (by decide) <| .token <| .self (by decide) .nil

end ReactiveForm.Expr
