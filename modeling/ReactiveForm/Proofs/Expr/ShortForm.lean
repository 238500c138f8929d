import ReactiveForm.Proofs.Expr.RoundTrip
import ReactiveForm.Proofs.Expr.ShortPath

/-!
# Texts in short form

From the primary expressions up to whole texts, the rules of the grammar do the same on a text and
on its abbreviation.
-/

set_option autoImplicit false

namespace ReactiveForm.Expr

open Rule

variable {α β : Type} {place : Place} {s s' t t' u u' v w x : List Char} {c : Char} {n n' : Nat}
  {inner inner' : Rule Expr}

/-! ## Literals and variables -/

theorem OpensStep.ne (h : OpensStep (c :: w)) {d : Char} (hd : isNameStart d = false)
    (hmark : d ∉ ['*', '/', '@', '.']) : c ≠ d := by
  rintro rfl
  obtain ⟨e, es, heq, he⟩ := h.head
  obtain rfl := (List.cons.inj heq).1
  rcases he with he | he
  · cases hd.symm.trans he
  · exact hmark he

/-- A scanner that reads tokens of one mark, with which no step starts and behind which an operator
may stand. -/
theorem literal_alike {p : Scan α} {d : Char} (hp : Whole p) (hempty : p [] = none)
    (hother : ∀ c w, c ≠ d → p (c :: w) = none) (hd : isNameStart d = false)
    (hmark : d ∉ ['*', '/', '@', '.']) (hafter : ∀ place w, Place.after place (d :: w) = .operator)
    (h : Shortens place s s') :
    Same never .operator s.length s'.length (p (skipBlanks s)) (p (skipBlanks s')) := by
  refine scan_alike hp hempty ?_ ?_ h
  · intro w hw
    obtain ⟨c, cs, rfl, -⟩ := hw.head
    exact hother c cs (hw.ne hd hmark)
  · intro w r hread
    cases w with
    | nil => cases hempty.symm.trans hread
    | cons c w =>
      by_cases hc : c = d
      · rw [hc]
        exact hafter place w
      · cases (hother c w hc).symm.trans hread

theorem variableReference_eq (s : List Char) :
    (variableReference s).parsed =
      (variableName (skipBlanks s)).map fun r => (.variable r.1, r.2) := by
  rcases hs : skipBlanks s with _ | ⟨c, t⟩
  · exact variableReference_of_notNext (notNext_of_nil hs)
  by_cases hc : c = '$'
  · subst hc
    have hdollar : (exactly (Scan.char '$') (skipBlanks s)).parsed = some ((), t) := by
      rw [parsed_exactly, hs, char_cons]
    refine (parsed_named _ s).trans ((parsed_bind_of_some hdollar).trans ?_)
    rw [variableName]
    rcases hname : qualifiedName t with _ | ⟨name, r⟩
    · refine parsed_bind_of_none ?_
      rw [hname]
    · refine parsed_bind_of_some (a := name) (t := r) ?_
      rw [hname]
  · rw [variableReference_of_notNext (notNext_of_ne hs hc), variableName_of_ne hc]
    rfl

theorem variableReference_alike (h : Shortens place s s') :
    Same never .operator s.length s'.length (variableReference s).parsed
      (variableReference s').parsed := by
  rw [variableReference_eq, variableReference_eq]
  refine Same.map (literal_alike (d := '$') Whole.variableName rfl
    (fun c w hc => variableName_of_ne hc w) (by decide) (by decide) ?_ h) Expr.variable
  intro place w
  cases place <;> rfl

theorem stringLiteral_alike (h : Shortens place s s') :
    Same never .operator s.length s'.length (stringLiteral s).parsed (stringLiteral s').parsed := by
  refine Same.bind_pure ?_ Expr.text
  rw [parsed_token, parsed_token]
  refine (literal_alike (d := '"') (Whole.quoted (by decide)) rfl (fun c w hc => quoted_of_ne hc w)
    (by decide) (by decide) ?_ h).or fun _ _ =>
      literal_alike (d := '\'') (Whole.quoted (by decide)) rfl (fun c w hc => quoted_of_ne hc w)
        (by decide) (by decide) ?_ h
  all_goals
    intro place w
    cases place <;> rfl

theorem after_of_isDigit (hc : c.isDigit = true) (place : Place) (w : List Char) :
    place.after (c :: w) = .operator := by
  have hcolon : ¬ (c = ':' ∨ c = '@') := by
    rintro (rfl | rfl) <;> exact absurd hc (by decide)
  have hname : ¬ (isNameStart c = true ∨ c = '*') := by
    rintro (hstart | rfl)
    · cases (not_isNameStart_of_isDigit hc).symm.trans hstart
    · exact absurd hc (by decide)
  rw [Place.after, if_neg hcolon, if_neg hname, if_pos (.inl hc)]

theorem numberLiteral_alike (h : Shortens place s s') :
    Same never .operator s.length s'.length (numberLiteral s).parsed (numberLiteral s').parsed := by
  refine Same.bind_pure ?_ Expr.number
  rw [parsed_token, parsed_token]
  refine scan_alike Whole.numeral rfl ?_ ?_ h
  · rintro w (⟨test, hread⟩ | hmem)
    · obtain ⟨c, cs, rfl, hc | rfl⟩ := nameTest_head hread
      · refine numeral_of_not_digit (not_isDigit_of_isNameStart hc) ?_ cs
        rintro rfl
        exact absurd hc (by decide)
      · exact numeral_of_not_digit (by decide) (by decide) cs
    · simp only [List.mem_cons, List.not_mem_nil, or_false] at hmem
      rcases hmem with rfl | rfl | rfl | rfl | rfl <;> rfl
  · intro w r hread
    cases w with
    | nil => cases hread
    | cons c w =>
      by_cases hdigit : c.isDigit = true
      · exact after_of_isDigit hdigit place w
      · by_cases hdot : c = '.'
        · subst hdot
          cases place <;> rfl
        · rw [numeral_of_not_digit (by simpa using hdigit) hdot] at hread
          cases hread

/-! ## Calls -/

theorem opensNodeType_alike (hw : Next w s u) (hw' : Next w s' u')
    (hrest : Shortens (place.after w) u u') :
    opensNodeType (skipBlanks s) = opensNodeType (skipBlanks s') := by
  have hhead : ∀ x : List Char,
      ((skipBlanks x).head? == some '(') = (mark '(' x).parsed.isSome := by
    intro x
    rw [parsed_mark]
    rcases skipBlanks x with _ | ⟨c, t⟩
    · rfl
    · by_cases hc : c = '('
      · subst hc
        rfl
      · rw [Scan.char, if_neg hc]
        simpa using hc
  rw [opensNodeType, opensNodeType, hw.scan_local looksUp_nodeType.isLocal,
    hw'.scan_local looksUp_nodeType.isLocal]
  rcases hread : nodeType w with _ | ⟨test, v⟩
  · rfl
  obtain ⟨m, -, rfl, rfl | ⟨d, r, rfl, -⟩⟩ :=
    looksUp_nodeType.leftover w u test v hw.kind hread
  · simp only [Option.map_some, List.nil_append, hhead]
    have hmark := mark_alike (c := '(') (by decide) hrest
    generalize (mark '(' u).parsed = q at hmark ⊢
    generalize (mark '(' u').parsed = q' at hmark ⊢
    cases hmark <;> rfl
  · simp only [Option.map_some, List.cons_append, skipBlanks_cons (c := ':') (by decide)]
    rfl

theorem nextArgument_alike (hinner : AlikeInside n n' inner inner') :
    Alike endsPaths .operator .operator n n' (nextArgument inner) (nextArgument inner') := by
  intro s s' hs hs' h
  refine (mark_alike (c := ',') (by decide) h).bind_of_never fun _ t t' ht ht' hrest => ?_
  exact (hinner t t' (by omega) (by omega) hrest).mono (by omega) (by omega) fun _ hc => hc

/-- What stands behind the opening parenthesis of a call. -/
def callRest (inner : Rule Expr) (name : String) : Rule Expr := do
  let args ← arguments inner
  mark ')'
  pure (.call name args)

theorem namedCall_eq (inner : Rule Expr) :
    namedCall inner = (do
      let name ← token qualifiedName
      mark '('
      callRest inner name) :=
  rfl

/-- Arguments behind a first one, up to the closing parenthesis. -/
def moreArguments (inner : Rule Expr) (name : String) (first : Expr) : Rule Expr := do
  let rest ← many (nextArgument inner)
  mark ')'
  pure (.call name (first :: rest))

theorem callRest_of_first {name : String} {e : Expr} (h : (inner s).parsed = some (e, t)) :
    (callRest inner name s).parsed = (moreArguments inner name e t).parsed := by
  obtain ⟨es, u, hes⟩ := exists_many (nextArgument inner) t
  have harguments : (arguments inner s).parsed = some (e :: es, u) :=
    (parsed_bind_of_some (optional_of_some h)).trans (parsed_bind_of_some hes)
  have hmore : (moreArguments inner name e t).parsed =
      ((do mark ')'; pure (.call name (e :: es)) : Rule Expr) u).parsed := parsed_bind_of_some hes
  rw [hmore]
  exact parsed_bind_of_some harguments

theorem callRest_of_none {name : String} (h : (inner s).parsed = none) :
    (callRest inner name s).parsed =
      ((do mark ')'; pure (.call name []) : Rule Expr) s).parsed := by
  have harguments : (arguments inner s).parsed = some ([], s) :=
    parsed_bind_of_some (optional_of_none h)
  exact parsed_bind_of_some harguments

theorem moreArguments_of_goesOn {name : String} {e : Expr} (h : GoesOn endsPaths s) :
    (moreArguments inner name e s).parsed = none := by
  have hmany : (many (nextArgument inner) s).parsed = some ([], s) :=
    many_of_none (nextArgument_of_notNext (h.notNext (by decide)))
  exact (parsed_bind_of_some hmany).trans
    (parsed_bind_of_none (h.notNext (c := ')') (by decide)).mark)

theorem callRest_alike (hinner : AlikeInside n n' inner inner') (name : String)
    (hs : s.length < n) (hs' : s'.length < n') (h : Shortens .operand s s') :
    Same never .operator s.length s'.length (callRest inner name s).parsed
      (callRest inner' name s').parsed := by
  have hfirst := hinner s s' hs hs' h
  generalize hr : (inner s).parsed = r at hfirst
  generalize hr' : (inner' s').parsed = r' at hfirst
  cases hfirst with
  | refused =>
    rw [callRest_of_none hr, callRest_of_none hr']
    exact (mark_alike (c := ')') (by decide) h).bind_pure fun _ => Expr.call name []
  | @read e t t' ht ht' hrest =>
    rw [callRest_of_first hr, callRest_of_first hr']
    have hmany := (nextArgument_alike hinner).many
      (fun x hx => ⟨nextArgument_of_notNext (hx.notNext (by decide)),
        nextArgument_of_notNext (hx.notNext (by decide))⟩) t t' (by omega) (by omega) hrest
    refine hmany.bind (fun es v v' hv hv' hrest => ?_) fun _ _ v v' _ _ hend hend' => ?_
    · exact ((mark_alike (c := ')') (by decide) hrest).mono (by omega) (by omega)
        fun _ hc => hc).bind_pure fun _ => Expr.call name (e :: es)
    · rw [parsed_bind_of_none (hend.notNext (by decide)).mark,
        parsed_bind_of_none (hend'.notNext (by decide)).mark]
      exact .refused
  | spoilt _ _ hend hend' =>
    rw [callRest_of_first hr, callRest_of_first hr', moreArguments_of_goesOn hend,
      moreArguments_of_goesOn hend']
    exact .refused

/-- A name in front of two texts that start with one token, with arguments or without. -/
theorem namedCall_alike (hinner : AlikeInside n n' inner inner') (hs : s.length ≤ n)
    (hs' : s'.length ≤ n') (hw : Next w s u) (hw' : Next w s' u')
    (hrest : Shortens (place.after w) u u') (hplace : place ≠ .operator) :
    Same never .operator s.length s'.length (namedCall inner (skipBlanks s)).parsed
      (namedCall inner' (skipBlanks s')).parsed := by
  have hname : Same colon .operator s.length s'.length
      (token qualifiedName (skipBlanks s)).parsed (token qualifiedName (skipBlanks s')).parsed := by
    rw [parsed_token, parsed_token, skipBlanks_skipBlanks, skipBlanks_skipBlanks]
    refine looksUp_qualifiedName.alike hw hw' fun hstarts => ?_
    rwa [hstarts.after hplace] at hrest
  rw [namedCall_eq, namedCall_eq]
  refine hname.bind (fun name t t' ht ht' hnext => ?_) fun _ _ t t' _ _ hend hend' => ?_
  · refine (mark_alike (c := '(') (by decide) hnext).bind_of_never fun _ v v' hv hv' hnext => ?_
    exact (callRest_alike hinner name (by omega) (by omega) hnext).mono (by omega) (by omega)
      fun _ hc => hc
  · rw [parsed_bind_of_none (hend.notNext (by decide)).mark,
      parsed_bind_of_none (hend'.notNext (by decide)).mark]
    exact .refused

/-- A node type with an opening parenthesis behind it. -/
theorem opensNodeType_of_next {name : String} (hw : Next name.toList s u)
    (hname : name ∈ nodeTypes.map Prod.fst) (h : (tokens u).head? = some ['(']) :
    opensNodeType (skipBlanks s) = true := by
  obtain ⟨ts, hts⟩ := List.head?_eq_some_iff.mp h
  obtain ⟨x, hx, -⟩ := tokens_eq_cons_iff.mp hts
  obtain ⟨test, hread⟩ : ∃ test, nodeType name.toList = some (test, []) := by
    simp only [nodeTypes, List.map_cons, List.map_nil, List.mem_cons, List.not_mem_nil,
      or_false] at hname
    rcases hname with rfl | rfl | rfl <;> exact ⟨_, rfl⟩
  rw [opensNodeType, hw.scan_local looksUp_nodeType.isLocal, hread]
  simp only [Option.map_some, List.nil_append, hx.eq]
  rfl

theorem namedCall_of_head_ne (hw : Next w s u) (h : (tokens u).head? ≠ some ['(']) :
    (namedCall inner (skipBlanks s)).parsed = none := by
  have hname : (token qualifiedName (skipBlanks s)).parsed =
      (qualifiedName w).map fun r => (r.1, r.2 ++ u) := by
    rw [parsed_token, skipBlanks_skipBlanks, hw.scan_local looksUp_qualifiedName.isLocal]
  rcases hread : qualifiedName w with _ | ⟨name, v⟩
  · rw [hread] at hname
    exact parsed_bind_of_none hname
  rw [hread] at hname
  refine (parsed_bind_of_some hname).trans (parsed_bind_of_none (NotNext.mark ?_))
  obtain ⟨m, -, -, rfl | ⟨d, r, rfl, -⟩⟩ :=
    looksUp_qualifiedName.leftover w u name v hw.kind hread
  · exact notNext_of_head_ne (by decide) h
  · exact notNext_of_ne (skipBlanks_cons (by decide) _) (by decide)

/-- Where nothing but a step starts, no function is called. -/
theorem OnlyStep.functionCall (h : OnlyStep s) (inner : Rule Expr) :
    (functionCall inner s).parsed = none := by
  cases h with
  | @name w u test hw hread hcall =>
    rw [parsed_functionCall]
    split
    · rfl
    next hopens =>
      have hopen : (tokens u).head? ≠ some ['('] := by
        intro hhead
        obtain ⟨name, hname, rfl⟩ := hcall hhead
        exact hopens (opensNodeType_of_next hw hname hhead)
      exact namedCall_of_head_ne hw hopen
  | mark hw hmem =>
    refine functionCall_of_noneInFront ?_
    simp only [List.mem_cons, List.not_mem_nil, or_false] at hmem
    rw [hw.eq]
    rcases hmem with rfl | rfl | rfl <;> exact noneInFront_cons (by decide) _

theorem functionCall_alike (hinner : AlikeInside n n' inner inner') (hs : s.length ≤ n)
    (hs' : s'.length ≤ n') (h : Shortens .operand s s') :
    Same never .operator s.length s'.length (functionCall inner s).parsed
      (functionCall inner' s').parsed := by
  have hnot : ∀ {x y : List Char} {d : Char} {r : Rule Expr}, skipBlanks x = d :: y →
      isNameStart d = false → (functionCall r x).parsed = none := by
    intro x y d r hx hd
    refine functionCall_of_noneInFront ?_
    rw [hx]
    exact noneInFront_cons hd y
  have hblank : ∀ {x : List Char} {r : Rule Expr}, skipBlanks x = [] →
      (functionCall r x).parsed = none := by
    intro x r hx
    refine functionCall_of_noneInFront ?_
    rw [hx]
    exact noneInFront_nil _
  rcases h.shortening.sides with ⟨hs, hs'⟩ | ⟨w, u, u', hw, hw', hrest⟩ | ⟨hstep, hstep'⟩ |
    ⟨_, u, u', hslash, -, hslashes, -⟩
  · exact .of_refused (hblank hs) (hblank hs')
  · rw [parsed_functionCall, parsed_functionCall, opensNodeType_alike hw hw' hrest]
    split
    · exact .refused
    · exact namedCall_alike hinner hs hs' hw hw' hrest (by decide)
  · exact .of_refused (hstep.functionCall inner) (hstep'.functionCall inner')
  · exact .of_refused (hnot hslash.eq (by decide)) (hnot hslashes.eq (by decide))

theorem primary_alike (hinner : AlikeInside n n' inner inner') (hs : s.length ≤ n)
    (hs' : s'.length ≤ n') (h : Shortens .operand s s') :
    Same never .operator s.length s'.length (primary inner s).parsed (primary inner' s').parsed :=
  (variableReference_alike h).orElse fun _ _ =>
    (enclosed_alike (a := '(') (b := ')') (by decide) (by decide) rfl hinner h hs hs').orElse
      fun _ _ => (stringLiteral_alike h).orElse fun _ _ => (numberLiteral_alike h).orElse
        fun _ _ => functionCall_alike hinner hs hs' h

/-! ## Paths and unions -/

/-- An expression with the steps that go on from it. -/
def pathFrom (inner : Rule Expr) (e : Expr) : Rule Expr := do
  let steps ← Rule.optional (continuation inner)
  match steps with
  | none => pure e
  | some steps => pure (.path (.nodes e) steps)

theorem filterPath_eq (inner : Rule Expr) :
    filterPath inner = (do
      let base ← primary inner
      let predicates ← many (predicate inner)
      pathFrom inner (filtered base predicates)) :=
  rfl

theorem pathFrom_of_refused {e : Expr} (h : (nextStep inner s).parsed = none) :
    (pathFrom inner e s).parsed = some (e, s) :=
  parsed_bind_of_some (optional_of_none (continuation_of_refused h))

theorem pathFrom_of_repeats {e : Expr} {as : List (List (Step Expr))} (hne : as ≠ [])
    (h : Repeats (nextStep inner) s as t) :
    (pathFrom inner e s).parsed = some (.path (.nodes e) as.flatten, t) :=
  parsed_bind_of_some (optional_of_some (continuation_of_repeats hne h))

theorem pathFrom_alike (hinner : AlikeInside n n' inner inner') (e : Expr) (hs : s.length ≤ n)
    (hs' : s'.length ≤ n') (h : Shortens .operator s s') :
    Same endsPaths .operator (s.length + 1) (s'.length + 1) (pathFrom inner e s).parsed
      (pathFrom inner' e s').parsed := by
  cases further_alike hinner hs hs' h with
  | stop hstop hstop' =>
    rw [pathFrom_of_refused hstop, pathFrom_of_refused hstop']
    exact .read (Nat.lt_succ_self _) (Nat.lt_succ_self _) h
  | half hsteps hx hslash hstop' hslashes =>
    rw [pathFrom_of_repeats (by simp) hsteps, pathFrom_of_refused hstop']
    exact .spoilt (by omega) (Nat.lt_succ_self _) (hslash.imp endsPaths_of_slash)
      (hslashes.goesOn_slash.imp endsPaths_of_slash)
  | steps hne hne' hsteps hsteps' hsame =>
    rw [pathFrom_of_repeats hne hsteps, pathFrom_of_repeats hne' hsteps']
    exact (hsame.map (Expr.path (.nodes e))).mono (Nat.le_succ _) (Nat.le_succ _) fun _ hc => hc

theorem filterPath_alike (hinner : AlikeInside n n' inner inner') (hs : s.length ≤ n)
    (hs' : s'.length ≤ n') (h : Shortens .operand s s') :
    Same endsPaths .operator s.length s'.length (filterPath inner s).parsed
      (filterPath inner' s').parsed := by
  rw [filterPath_eq, filterPath_eq]
  refine (primary_alike hinner hs hs' h).bind_of_never fun base t t' ht ht' hrest => ?_
  have hpredicates := predicates_alike hinner (by omega) (by omega) hrest
  refine hpredicates.bind_of_never fun ps v v' hv hv' hrest => ?_
  exact (pathFrom_alike hinner (filtered base ps) (by omega) (by omega) hrest).mono (by omega)
    (by omega) fun _ hc => hc

theorem pathExpr_alike (hinner : AlikeInside n n' inner inner') :
    Alike endsPaths .operand .operator (n + 1) (n' + 1) (pathExpr inner) (pathExpr inner') :=
  fun s s' hs hs' h => (absolutePath_alike hinner s s' hs hs' h).orElse fun _ _ =>
    (filterPath_alike hinner (Nat.le_of_lt_succ hs) (Nat.le_of_lt_succ hs') h).orElse fun _ _ =>
      (relativePath_alike hinner s s' hs hs' h).bind_pure (Expr.path .context)

theorem nextOperand_alike (hinner : AlikeInside n n' inner inner') :
    Alike endsPaths .operator .operator (n + 1) (n' + 1) (nextOperand inner)
      (nextOperand inner') := by
  intro s s' hs hs' h
  have hbar : Same never .operand s.length s'.length (token (Scan.char '|') s).parsed
      (token (Scan.char '|') s').parsed := by
    rw [parsed_token, parsed_token]
    exact char_alike (c := '|') (by decide) h
  refine hbar.bind_of_never fun _ t t' ht ht' hrest => ?_
  exact (pathExpr_alike hinner t t' (by omega) (by omega) hrest).mono (by omega) (by omega)
    fun _ hc => hc

/-- Operands joined by something of their own, as often as it goes on. -/
theorem gathered_alike {p p' : Rule α} {round round' : Rule β} (join : α → β → α)
    (hfirst : Same endsPaths .operator s.length s'.length (p s).parsed (p' s').parsed)
    (hround : Alike endsPaths .operator .operator n n' round round')
    (hdead : ∀ t, GoesOn endsPaths t → (round t).parsed = none ∧ (round' t).parsed = none)
    (hs : s.length ≤ n) (hs' : s'.length ≤ n') :
    Same endsPaths .operator s.length s'.length
      ((do let first ← p; let rest ← many round; pure (rest.foldl join first) : Rule α) s).parsed
      ((do let first ← p'; let rest ← many round'; pure (rest.foldl join first) : Rule α)
        s').parsed := by
  refine hfirst.bind (fun a t t' ht ht' hrest => ?_) fun a a' t t' ht ht' hend hend' => ?_
  · have hmany := hround.many hdead t t' (by omega) (by omega) hrest
    exact (hmany.mono ht ht' fun _ hc => hc).bind_pure fun rest => rest.foldl join a
  · rw [parsed_bind_of_some (many_of_none (hdead t hend).1),
      parsed_bind_of_some (many_of_none (hdead t' hend').2)]
    exact .spoilt ht ht' hend hend'

theorem unionExpr_alike (hinner : AlikeInside n n' inner inner') :
    Alike endsPaths .operand .operator (n + 1) (n' + 1) (unionExpr inner) (unionExpr inner') :=
  fun s s' hs hs' h =>
    gathered_alike Expr.union (pathExpr_alike hinner s s' hs hs' h) (nextOperand_alike hinner)
      (fun _ ht => ⟨nextOperand_of_notNext (ht.notNext (by decide)),
        nextOperand_of_notNext (ht.notNext (by decide))⟩) (Nat.le_of_lt hs) (Nat.le_of_lt hs')

/-- Signs in front of a union. -/
theorem signedExpr_alike (hinner : AlikeInside n n' inner inner') :
    Alike endsPaths .operand .operator (n + 1) (n' + 1) (signedExpr inner) (signedExpr inner') := by
  intro s s' hs hs' h
  have hsign : Alike never .operand .operand (n + 1) (n' + 1) signRule signRule := by
    intro x x' _ _ hx
    rw [signRule, parsed_token, parsed_token]
    exact char_alike (c := '-') (by decide) hx
  have hsigns := hsign.many (fun _ ht => absurd ht not_goesOn_never) s s' hs hs' h
  refine hsigns.bind_of_never fun signs t t' ht ht' hrest => ?_
  exact ((unionExpr_alike hinner t t' (by omega) (by omega) hrest).mono (Nat.le_of_lt_succ ht)
    (Nat.le_of_lt_succ ht') fun _ hc => hc).bind_pure fun e =>
      signs.foldl (fun e _ => e.negate) e

/-! ## Operators -/

theorem isSimpleName_of_read (h : simpleName w = some (w, [])) : IsSimpleName w :=
  (simpleName_sound h).1

variable {m : String} {op : Operator} {o : Rule Operator}

theorem sign_eq (m : String) (op : Operator) (s : List Char) :
    (sign m op s).parsed = (Scan.word m.toList (skipBlanks s)).map fun r => (op, r.2) := by
  rw [sign, parsed_bind, parsed_token]
  cases Scan.word m.toList (skipBlanks s) <;> rfl

theorem operatorName_eq (m : String) (op : Operator) (s : List Char) :
    (operatorName m op s).parsed = (keyword m (skipBlanks s)).map fun r => (op, r.2) := by
  rw [operatorName, parsed_bind, parsed_token]
  cases keyword m (skipBlanks s) <;> rfl

/-- A mark that may also start one of two characters, where it does not. -/
theorem Lexeme.eq_nil_of_half (h : Lexeme (c :: v) u) (hpair : [c, '='] ∈ pairs)
    (hnot : v ≠ ['=']) : v = [] := by
  obtain ⟨hname, hdigit, hmark, hdot, hsecond⟩ : isNameStart c = false ∧ c.isDigit = false ∧
      c ∉ ['"', '\'', '$'] ∧ c ≠ '.' ∧ (c :: v ∈ pairs → v = ['=']) := by
    simp only [pairs, List.mem_cons, List.not_mem_nil, or_false, List.cons.injEq, and_true] at hpair
    rcases hpair with ⟨-, h⟩ | ⟨-, h⟩ | ⟨-, h⟩ | rfl | rfl | rfl
    all_goals first
      | exact absurd h (by decide)
      | exact ⟨by decide, by decide, by decide, by decide, by simp [pairs]⟩
  rcases h.head with h | h | h | ⟨h, -⟩ | h | ⟨h, -⟩
  · cases hname.symm.trans h
  · cases hdigit.symm.trans h
  · exact absurd h hmark
  · exact absurd h hdot
  · exact absurd (hsecond h) hnot
  · exact h

section Signs

variable (hw : Next w s u) (hw' : Next w s' u') (hrest : Shortens (Place.operator.after w) u u')
include hw hw' hrest

theorem operatorName_alike (hm : IsSimpleName m.toList) :
    Same colon .operand s.length s'.length (operatorName m op s).parsed
      (operatorName m op s').parsed := by
  rw [operatorName_eq, operatorName_eq]
  refine ((looksUp_keyword hm).alike hw hw' fun hname => ?_).map fun _ => op
  rwa [hname.after_operator] at hrest

theorem pairSign_alike (hm : m.toList ∈ pairs)
    (hafter : ∀ v, Place.operator.after (m.toList ++ v) = .operand) :
    Same colon .operand s.length s'.length (sign m op s).parsed (sign m op s').parsed := by
  rw [sign_eq, sign_eq, hw.scan (Whole.word hm), hw'.scan (Whole.word hm)]
  rcases hread : Scan.word m.toList w with _ | ⟨_, v⟩
  · exact .refused
  · rw [word_eq_some_iff.mp hread, hafter] at hrest
    exact .read hw.length_lt hw'.length_lt hrest

/-- A sign of one character, where the token is no longer than it. -/
theorem singleSign_alike (hm : m.toList = [c]) (hafter : Place.operator.after [c] = .operand)
    (halone : ∀ v, w = c :: v → v = []) :
    Same colon .operand s.length s'.length (sign m op s).parsed (sign m op s').parsed := by
  rw [sign_eq, sign_eq, hm, word_singleton, word_singleton, hw.scan_local (Local.char c),
    hw'.scan_local (Local.char c)]
  obtain ⟨d, v, rfl⟩ := List.exists_cons_of_ne_nil hw.kind.ne_nil
  by_cases hd : d = c
  · subst hd
    obtain rfl := halone v rfl
    rw [hafter] at hrest
    rw [char_cons]
    exact .read hw.length_lt hw'.length_lt hrest
  · rw [Scan.char, if_neg hd]
    exact .refused

theorem solidSign_alike (hm : m.toList = [c]) (hc : c ∈ solid)
    (hafter : Place.operator.after [c] = .operand) :
    Same colon .operand s.length s'.length (sign m op s).parsed (sign m op s').parsed :=
  singleSign_alike hw hw' hrest hm hafter fun _ hv => Lexeme.eq_nil (hv ▸ hw.kind) hc

/-- A sign of one character that may also start one of two. -/
theorem halfSign_alike {l : String} {op' : Operator} (hm : m.toList = [c])
    (hl : l.toList = [c, '=']) (hpair : [c, '='] ∈ pairs)
    (hafter : Place.operator.after [c] = .operand) (hnone : (sign l op' s).parsed = none) :
    Same colon .operand s.length s'.length (sign m op s).parsed (sign m op s').parsed := by
  refine singleSign_alike hw hw' hrest hm hafter ?_
  rintro v rfl
  refine hw.kind.eq_nil_of_half hpair fun hv => ?_
  rw [sign_eq, hl, hw.eq, Option.map_eq_none_iff, hv] at hnone
  simp [Scan.word, Scan.char] at hnone

theorem operator_alike_token (ho : o ∈ operators) :
    Same colon .operand s.length s'.length (o s).parsed (o s').parsed := by
  simp only [operators, List.mem_cons, List.not_mem_nil, or_false] at ho
  rcases ho with rfl | rfl | rfl | rfl | rfl | rfl
  · exact operatorName_alike hw hw' hrest (isSimpleName_of_read rfl)
  · exact operatorName_alike hw hw' hrest (isSimpleName_of_read rfl)
  · exact (solidSign_alike hw hw' hrest (c := '=') rfl (by decide) rfl).orElse fun _ _ =>
      pairSign_alike hw hw' hrest (by decide) fun _ => rfl
  · exact (pairSign_alike hw hw' hrest (by decide) fun _ => rfl).orElse fun hless _ =>
      (halfSign_alike hw hw' hrest (c := '<') rfl rfl (by decide) rfl hless).orElse fun _ _ =>
        (pairSign_alike hw hw' hrest (by decide) fun _ => rfl).orElse fun hgreater _ =>
          halfSign_alike hw hw' hrest (c := '>') rfl rfl (by decide) rfl hgreater
  · exact (solidSign_alike hw hw' hrest (c := '+') rfl (by decide) rfl).orElse fun _ _ =>
      solidSign_alike hw hw' hrest (c := '-') rfl (by decide) rfl
  · exact (solidSign_alike hw hw' hrest (c := '*') rfl (by decide) rfl).orElse fun _ _ =>
      (operatorName_alike hw hw' hrest (isSimpleName_of_read rfl)).orElse fun _ _ =>
        operatorName_alike hw hw' hrest (isSimpleName_of_read rfl)

end Signs

/-- No operator starts with a character of another kind. -/
theorem operators_refuse_of_head (hs : skipBlanks s = c :: t) (hc : isNameStart c = false)
    (hmark : c ∉ operatorMarks) (ho : o ∈ operators) : (o s).parsed = none := by
  have hword : ∀ d ∈ operatorMarks, ∀ v, Scan.word (d :: v) (c :: t) = none := by
    refine fun d hd v => word_refuses fun e he heq => hmark ?_
    obtain rfl : c = e := by simpa using he
    rwa [heq]
  have hname : ∀ m : String, IsSimpleName m.toList → keyword m (c :: t) = none := by
    intro m hm
    refine if_neg fun heq => ?_
    obtain ⟨d, ds, hd, hstart, -⟩ := hm
    rw [hd, List.takeWhile_cons] at heq
    split at heq
    · rw [(List.cons.inj heq).1, hstart] at hc
      cases hc
    · cases heq
  simp only [operatorMarks, List.forall_mem_cons] at hword
  have hnames : ∀ m ∈ ["or", "and", "div", "mod"], keyword m (c :: t) = none := by
    intro m hm
    simp only [List.mem_cons, List.not_mem_nil, or_false] at hm
    rcases hm with rfl | rfl | rfl | rfl <;> exact hname _ (isSimpleName_of_read rfl)
  simp only [List.forall_mem_cons] at hnames
  simp only [operators, List.mem_cons, List.not_mem_nil, or_false] at ho
  rcases ho with rfl | rfl | rfl | rfl | rfl | rfl <;>
    simp [orOperator, andOperator, equalityOperator, orderOperator, sumOperator, productOperator,
      operatorName, sign, hs, hword, hnames]

theorem operators_refuse_slash (hs : skipBlanks s = '/' :: t) (ho : o ∈ operators) :
    (o s).parsed = none :=
  operators_refuse_of_head hs (by decide) (by decide) ho

/-- A name of an operator with a colon behind it is read as the operator, and no operand is read
behind it. -/
theorem operator_alike (ho : o ∈ operators) (h : Shortens .operator s s') :
    Same colon .operand s.length s'.length (o s).parsed (o s').parsed := by
  have hblank : ∀ {x : List Char}, skipBlanks x = [] → (o x).parsed = none := by
    intro x hx
    refine operators_refuse ?_ ?_ o ho <;> rw [hx] <;> simp [NoneInFront]
  cases h.shortening with
  | blank hs hs' => exact .of_refused (hblank hs) (hblank hs')
  | token hw hw' hrest => exact operator_alike_token hw hw' hrest ho
  | anyDepth _ hahead hslashes =>
    rw [tokens_anyDepth] at hahead
    obtain ⟨t, ht, -⟩ := hahead
    exact .of_refused (operators_refuse_slash ht.eq ho) (operators_refuse_slash hslashes.eq ho)

theorem operator_of_goesOn (ho : o ∈ operators) (h : GoesOn endsPaths s) :
    (o s).parsed = none := by
  obtain ⟨c, t, hs, hc⟩ := h
  simp only [endsPaths, Bool.or_eq_true, decide_eq_true_eq] at hc
  rcases hc with hdigit | rfl
  · refine operators_refuse_of_head hs (not_isNameStart_of_isDigit hdigit) (fun hmem => ?_) ho
    simp only [operatorMarks, List.mem_cons, List.not_mem_nil, or_false] at hmem
    rcases hmem with rfl | rfl | rfl | rfl | rfl | rfl | rfl <;> exact absurd hdigit (by decide)
  · exact operators_refuse_slash hs ho

/-! ## Levels -/

/-- An operator with its right operand. -/
def applied (o : Rule Operator) (operand : Rule Expr) : Rule (Operator × Expr) := do
  let op ← o
  let right ← operand
  pure (op, right)

theorem applied_alike {p p' : Rule Expr} (ho : o ∈ operators)
    (hp : Alike endsPaths .operand .operator n n' p p')
    (hcolon : ∀ t, GoesOn colon t → (p t).parsed = none ∧ (p' t).parsed = none) :
    Alike endsPaths .operator .operator n n' (applied o p) (applied o p') := by
  intro s s' hs hs' h
  refine (operator_alike ho h).bind (fun op t t' ht ht' hrest => ?_)
    fun op op' t t' _ _ hend hend' => ?_
  · exact ((hp t t' (by omega) (by omega) hrest).mono (by omega) (by omega)
      fun _ hc => hc).bind_pure fun right => (op, right)
  · rw [parsed_bind_of_none (hcolon t hend).1, parsed_bind_of_none (hcolon t' hend').2]
    exact .refused

theorem chain_alike {p p' : Rule Expr} (ho : o ∈ operators)
    (hp : Alike endsPaths .operand .operator n n' p p')
    (hcolon : ∀ t, GoesOn colon t → (p t).parsed = none ∧ (p' t).parsed = none) :
    Alike endsPaths .operand .operator n n' (chain o p) (chain o p') := by
  intro s s' hs hs' h
  have hdead : ∀ {q : Rule Expr} {t : List Char}, GoesOn endsPaths t →
      (applied o q t).parsed = none := fun ht => parsed_bind_of_none (operator_of_goesOn ho ht)
  exact gathered_alike (fun left (x : Operator × Expr) => .binary x.1 left x.2) (hp s s' hs hs' h)
    (applied_alike ho hp hcolon) (fun _ ht => ⟨hdead ht, hdead ht⟩) (Nat.le_of_lt hs)
    (Nat.le_of_lt hs')

theorem levels_alike {p p' : Rule Expr} (hp : Alike endsPaths .operand .operator n n' p p')
    (hcolon : ∀ t, GoesOn colon t → (p t).parsed = none ∧ (p' t).parsed = none) :
    ∀ os : List (Rule Operator), (∀ o ∈ os, o ∈ operators) →
      Alike endsPaths .operand .operator n n' (os.foldr chain p) (os.foldr chain p') := by
  intro os
  induction os with
  | nil => exact fun _ => hp
  | cons o os ih =>
    intro hos
    refine chain_alike (hos o (by simp)) (ih fun q hq => hos q (by simp [hq])) fun t ht => ?_
    exact ⟨levels_of_refused (hcolon t ht).1, levels_of_refused (hcolon t ht).2⟩

theorem signedExpr_of_colon (inner : Rule Expr) (h : GoesOn colon s) :
    (signedExpr inner s).parsed = none := by
  obtain ⟨c, t, hs, hc⟩ := h
  obtain rfl : c = ':' := by simpa [colon] using hc
  have hrun : (':' :: t).takeWhile isNameChar = [] := List.takeWhile_cons_of_neg (by decide)
  have hstep : (step inner s).parsed = none :=
    step_of_run [] hs (by decide) (by decide) hrun (by decide) (by decide)
  have hpath := pathExpr_of_refused (notNext_of_ne hs (by decide))
    (primary_of_mark inner hs (by decide) (by decide) (by decide)) (parsed_bind_of_none hstep)
  have hsigns : (many signRule s).parsed = some ([], s) :=
    many_of_none (signRule_of_notNext (notNext_of_ne hs (by decide)))
  exact (parsed_bind_of_some hsigns).trans (parsed_bind_of_none (parsed_bind_of_none hpath))

theorem expr_alike (n n' : Nat) : AlikeInside n n' (expr n) (expr n') := by
  induction n generalizing n' with
  | zero => exact fun s s' hs => absurd hs (Nat.not_lt_zero _)
  | succ n ih =>
    cases n' with
    | zero => exact fun s s' _ hs' => absurd hs' (Nat.not_lt_zero _)
    | succ n' =>
      exact levels_alike (signedExpr_alike (ih n'))
        (fun t ht => ⟨signedExpr_of_colon _ ht, signedExpr_of_colon _ ht⟩) operators fun _ ho => ho

/-! ## Whole texts -/

theorem Shortens.blank_iff (h : Shortens place s s') : skipBlanks s = [] ↔ skipBlanks s' = [] := by
  have hne : ∀ {x w u : List Char}, Next w x u → skipBlanks x ≠ [] := by
    intro x w u hw hx
    rw [hw.eq] at hx
    exact hw.kind.ne_nil (List.append_eq_nil_iff.mp hx).1
  rcases h.shortening.next with ⟨hs, hs'⟩ | ⟨w, u, u', hw, hw', -⟩ | ⟨w, u, w', u', hw, hw', -⟩
  · exact iff_of_true hs hs'
  · exact iff_of_false (hne hw) (hne hw')
  · exact iff_of_false (hne hw) (hne hw')

theorem endOfText_eq (s : List Char) :
    (token endOfText s).parsed = if skipBlanks s = [] then some ((), []) else none := by
  rw [parsed_token]
  rcases skipBlanks s with _ | ⟨c, t⟩ <;> rfl

/-- A text and its abbreviation are read as the same expression, or neither of them is read. -/
theorem whole_alike (h : Shortens .operand s s') :
    (whole s).parsed = (whole s').parsed := by
  have hexpr := expr_alike (s.length + 1) (s'.length + 1) s s' (Nat.lt_succ_self _)
    (Nat.lt_succ_self _) h
  rw [whole, whole]
  generalize hr : (expr (s.length + 1) s).parsed = r at hexpr
  generalize hr' : (expr (s'.length + 1) s').parsed = r' at hexpr
  cases hexpr with
  | refused => rw [parsed_bind_of_none hr, parsed_bind_of_none hr']
  | read _ _ hrest =>
    rw [parsed_bind_of_some hr, parsed_bind_of_some hr', parsed_bind, parsed_bind, endOfText_eq,
      endOfText_eq]
    simp only [hrest.blank_iff]
  | spoilt _ _ hend hend' =>
    have hnone : ∀ {x : List Char}, GoesOn endsPaths x → (token endOfText x).parsed = none := by
      rintro x ⟨c, t, hx, -⟩
      rw [endOfText_eq, hx]
      rfl
    rw [parsed_bind_of_some hr, parsed_bind_of_some hr', parsed_bind_of_none (hnone hend),
      parsed_bind_of_none (hnone hend')]

/-- What a text is read as, every abbreviation of it is read as. -/
theorem read_of_shortens {text text' : String} {e : Expr} (hread : read text = .ok e)
    (h : Shortens .operand text.toList text'.toList) : read text' = .ok e := by
  rw [read_eq_ok_iff] at hread ⊢
  rwa [← whole_alike h]

end ReactiveForm.Expr
