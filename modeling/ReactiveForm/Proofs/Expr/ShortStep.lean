import ReactiveForm.Proofs.Expr.Abbreviation

/-!
# Abbreviated steps

A step and its abbreviation are read as the same step.
-/

set_option autoImplicit false

namespace ReactiveForm.Expr

open Rule

variable {α : Type} {place : Place} {s s' t t' u u' v w : List Char} {c : Char} {n n' : Nat}
  {inner inner' : Rule Expr}

/-! ## Node tests -/

theorem after_of_name_or_star (hc : isNameStart c = true ∨ c = '*') (hplace : place ≠ .operator)
    (w : List Char) : place.after (c :: w) = .operator := by
  have hcolon : ¬ (c = ':' ∨ c = '@') := by
    rintro (rfl | rfl) <;> revert hc <;> decide
  rw [Place.after, if_neg hcolon, if_pos hc, if_neg hplace]

theorem ne_of_name_or_star {d : Char} (hc : isNameStart c = true ∨ c = '*')
    (hd : ¬ (isNameStart d = true ∨ d = '*')) : c ≠ d := by
  rintro rfl
  exact hd hc

theorem StartsName.after (hw : StartsName w) (hplace : place ≠ .operator) :
    place.after w = .operator := by
  obtain ⟨c, cs, rfl, hc⟩ := hw
  exact after_of_name_or_star (.inl hc) hplace cs

theorem StartsName.after_operator (hw : StartsName w) : Place.operator.after w = .operand := by
  obtain ⟨c, cs, rfl, hc⟩ := hw
  have hcolon : ¬ (c = ':' ∨ c = '@') := by
    rintro (rfl | rfl) <;> exact absurd hc (by decide)
  rw [Place.after, if_neg hcolon, if_pos (.inl hc), if_pos rfl]

theorem after_of_nameTest {r : NodeTest × List Char} (h : nameTest w = some r)
    (hplace : place ≠ .operator) : place.after w = .operator := by
  obtain ⟨c, cs, rfl, hc⟩ := nameTest_head h
  exact after_of_name_or_star hc hplace cs

def colon : Char → Bool := (· == ':')

/-- A scanner that looks up the name in front of two texts that start with one token. -/
theorem LooksUp.alike {p : Scan α} (hp : LooksUp p) (hw : Next w s u) (hw' : Next w s' u')
    (hrest : StartsName w → Shortens place u u') :
    Same colon place s.length s'.length (p (skipBlanks s)) (p (skipBlanks s')) := by
  rw [hw.scan_local hp.isLocal, hw'.scan_local hp.isLocal]
  rcases hread : p w with _ | ⟨a, v⟩
  · exact .refused
  obtain ⟨m, hm, rfl, hv⟩ := hp.leftover w u a v hw.kind hread
  -- the token is read whole, or up to a colon that the rest then starts with
  rcases hv with rfl | ⟨d, r, rfl, -⟩
  · rw [List.append_nil] at hrest
    exact .read hw.length_lt hw'.length_lt (hrest hm)
  · have hgoes : ∀ x : List Char, GoesOn colon (':' :: d :: r ++ x) := fun x =>
      ⟨':', _, skipBlanks_cons (by decide) _, rfl⟩
    have hlength : ∀ {x y : List Char}, Next (m ++ ':' :: d :: r) x y →
        (':' :: d :: r ++ y).length < x.length := by
      intro x y hxy
      have hle := skipBlanks_length_le x
      have hpos : 0 < m.length := by
        obtain ⟨e, es, rfl, -⟩ := hm
        exact Nat.succ_pos _
      rw [hxy.eq, List.append_assoc, List.length_append] at hle
      omega
    exact .spoilt (hlength hw) (hlength hw') (hgoes u) (hgoes u')

theorem kindTest_alike (hw : Next w s u) (hw' : Next w s' u')
    (hrest : Shortens (place.after w) u u') (hplace : place ≠ .operator) :
    Same never .operator s.length s'.length (kindTest s).parsed (kindTest s').parsed := by
  have hname : Same colon .operator s.length s'.length (token nodeType s).parsed
      (token nodeType s').parsed := by
    rw [parsed_token, parsed_token]
    refine looksUp_nodeType.alike hw hw' fun hname => ?_
    rwa [hname.after hplace] at hrest
  refine hname.bind (fun test t t' ht ht' hnext => ?_) fun _ _ t t' _ _ hend hend' => ?_
  · refine (mark_alike (c := '(') (by decide) hnext).bind_of_never fun _ v v' hv hv' hnext => ?_
    exact ((mark_alike (c := ')') (by decide) hnext).mono (by omega) (by omega)
      fun _ hc => hc).bind_pure fun _ => test
  · rw [parsed_bind_of_none (hend.notNext (by decide)).mark,
      parsed_bind_of_none (hend'.notNext (by decide)).mark]
    exact .refused

/-- A node test in front of two texts that start with one token. -/
theorem nodeTest_alike (hw : Next w s u) (hw' : Next w s' u')
    (hrest : Shortens (place.after w) u u') (hplace : place ≠ .operator) :
    Same never .operator s.length s'.length (nodeTest s).parsed (nodeTest s').parsed := by
  refine (kindTest_alike hw hw' hrest hplace).orElse fun _ _ => ?_
  rw [parsed_token, parsed_token, hw.scan Whole.nameTest, hw'.scan Whole.nameTest]
  cases hread : nameTest w with
  | none => exact .refused
  | some r =>
    rw [after_of_nameTest hread hplace] at hrest
    exact .read hw.length_lt hw'.length_lt hrest

theorem nodeTest_of_blank (hs : skipBlanks s = []) : (nodeTest s).parsed = none := by
  rw [nodeTest, parsed_orElse, kindTest, parsed_bind, parsed_token, parsed_token, hs]
  rfl

theorem Shortens.nodeTest_alike (h : Shortens .test s s') :
    Same never .operator s.length s'.length (nodeTest s).parsed (nodeTest s').parsed := by
  cases h.shortening with
  | blank hs hs' => exact .of_refused (nodeTest_of_blank hs) (nodeTest_of_blank hs')
  | token hw hw' hrest => exact Expr.nodeTest_alike hw hw' hrest (by decide)
  | anyDepth hplace => exact absurd rfl hplace

/-- A node type with its parentheses. -/
theorem kindTest_of_ahead {name : String} (hname : name ∈ nodeTypes.map Prod.fst)
    (h : Ahead [name.toList, ['('], [')']] s u) :
    ∃ test, nodeTypes.lookup name = some test ∧ (kindTest s).parsed = some (test, u) := by
  obtain ⟨t, hname', v, hopen, u, hclose, rfl⟩ := h
  obtain ⟨test, htest, hread⟩ : ∃ test, nodeTypes.lookup name = some test ∧
      nodeType name.toList = some (test, []) := by
    simp only [nodeTypes, List.map_cons, List.map_nil, List.mem_cons, List.not_mem_nil,
      or_false] at hname
    rcases hname with rfl | rfl | rfl <;> exact ⟨_, rfl, rfl⟩
  have htype : (token nodeType s).parsed = some (test, t) := by
    rw [parsed_token, hname'.scan_local looksUp_nodeType.isLocal, hread]
    rfl
  exact ⟨test, htest, (parsed_bind_of_some htype).trans <|
    (parsed_bind_of_some (mark_of_next hopen.eq)).trans
      (parsed_bind_of_some (mark_of_next hclose.eq))⟩

theorem nodeTest_of_startsTest (h : StartsTest (tokens s)) : (nodeTest s).parsed ≠ none := by
  generalize hts : tokens s = ts at h
  rw [nodeTest, parsed_orElse]
  cases h with
  | name hread =>
    obtain ⟨u, hw, -⟩ := tokens_eq_cons_iff.mp hts
    rw [parsed_token, hw.scan Whole.nameTest, hread]
    cases (kindTest s).parsed <;> simp
  | kind hname =>
    obtain ⟨u, hw, hrest⟩ := tokens_eq_cons_iff.mp hts
    obtain ⟨v, hopen, hrest⟩ := tokens_eq_cons_iff.mp hrest
    obtain ⟨x, hclose, -⟩ := tokens_eq_cons_iff.mp hrest
    obtain ⟨test, -, hread⟩ := kindTest_of_ahead hname ⟨u, hw, v, hopen, x, hclose, rfl⟩
    rw [hread, Option.some_or]
    simp

/-! ## Axes -/

theorem colons_alike (h : Shortens place s s') :
    Same never .test s.length s'.length (token (Scan.word [':', ':']) s).parsed
      (token (Scan.word [':', ':']) s').parsed := by
  rw [parsed_token, parsed_token]
  refine scan_alike (Whole.word (by decide)) rfl ?_ ?_ h
  · intro w hw
    obtain ⟨c, cs, rfl, hc⟩ := hw.head
    refine word_pair_of_ne ?_ cs
    rintro rfl
    rcases hc with hc | hc <;> exact absurd hc (by decide)
  · rintro w ⟨_, v⟩ hread
    obtain rfl := word_eq_some_iff.mp hread
    cases place <;> rfl

/-- An axis by its name in front of two texts that start with one token. -/
theorem namedAxis_alike (hw : Next w s u) (hw' : Next w s' u')
    (hrest : Shortens (place.after w) u u') :
    Same never .test s.length s'.length (namedAxis s).parsed (namedAxis s').parsed := by
  rw [namedAxis, parsed_bind, parsed_bind, parsed_token, parsed_token,
    hw.scan_local looksUp_axisName.isLocal, hw'.scan_local looksUp_axisName.isLocal]
  rcases hread : axisName w with _ | ⟨axis, v⟩
  · exact .refused
  obtain ⟨m, hm, rfl, rfl | ⟨d, r, rfl, hd⟩⟩ := looksUp_axisName.leftover w u axis v hw.kind hread
  · have hcolons := (colons_alike hrest).mono (Nat.le_of_lt hw.length_lt)
      (Nat.le_of_lt hw'.length_lt) fun _ hc => hc
    exact hcolons.bind_pure fun _ => axis
  · have hnone : ∀ x : List Char,
        ((do token (Scan.word [':', ':']); pure axis : Rule Axis) (':' :: d :: r ++ x)).parsed =
          none := by
      intro x
      refine parsed_bind_of_none ?_
      rw [parsed_token, List.cons_append, skipBlanks_cons (by decide)]
      simp [Scan.word, Scan.char, hd]
    simp only [Option.map_some, Option.bind_some]
    rw [hnone, hnone]
    exact .refused

theorem axisOf_alike (hw : Next w s u) (hw' : Next w s' u')
    (hrest : Shortens (place.after w) u u') :
    Same never .test s.length s'.length (axisOf s).parsed (axisOf s').parsed := by
  refine (namedAxis_alike hw hw' hrest).orElse fun _ _ => ?_
  refine Same.bind_pure ?_ fun _ => Axis.attributes
  have hat : Whole (Scan.char '@') := Whole.char (by decide)
  rw [parsed_token, parsed_token, hw.scan hat, hw'.scan hat]
  rcases hread : Scan.char '@' w with _ | ⟨_, v⟩
  · exact .refused
  have hafter : place.after w = .test := by
    cases w with
    | nil => cases hread
    | cons c w =>
      by_cases hc : c = '@'
      · exact if_pos (.inr hc)
      · rw [Scan.char, if_neg hc] at hread
        cases hread
  rw [hafter] at hrest
  exact .read hw.length_lt hw'.length_lt hrest

/-- An axis by its name, with two colons behind it. -/
theorem axisOf_of_ahead (axis : Axis) (h : Ahead [axis.name.toList, [':', ':']] s u) :
    (axisOf s).parsed = some (axis, u) := by
  obtain ⟨t, hname, u, hcolons, rfl⟩ := h
  have hread : axisName axis.name.toList = some (axis, []) := by
    cases axis <;> rfl
  have haxis : (token axisName s).parsed = some (axis, t) := by
    rw [parsed_token, hname.scan_local looksUp_axisName.isLocal, hread]
    rfl
  have hword : (token (Scan.word [':', ':']) t).parsed = some ((), u) := by
    rw [parsed_token, hcolons.scan (Whole.word (by decide))]
    rfl
  have hnamed : (namedAxis s).parsed = some (axis, u) :=
    (parsed_bind_of_some haxis).trans (parsed_bind_of_some hword)
  rw [axisOf, parsed_orElse, hnamed, Option.some_or]

/-! ## Steps -/

theorem predicate_alike (hinner : AlikeInside n n' inner inner') :
    Alike never .operator .operator (n + 1) (n' + 1) (predicate inner) (predicate inner') :=
  fun _ _ hs hs' h => enclosed_alike (a := '[') (b := ']') (by decide) (by decide) rfl hinner h
    (Nat.le_of_lt_succ hs) (Nat.le_of_lt_succ hs')

theorem predicates_alike (hinner : AlikeInside n n' inner inner') (hs : s.length ≤ n)
    (hs' : s'.length ≤ n') (h : Shortens .operator s s') :
    Same never .operator (s.length + 1) (s'.length + 1) (many (predicate inner) s).parsed
      (many (predicate inner') s').parsed :=
  (predicate_alike hinner).many (fun _ ht => absurd ht not_goesOn_never) s s'
    (Nat.lt_succ_of_le hs) (Nat.lt_succ_of_le hs') h

/-- What stands behind an axis. -/
def testStep (inner : Rule Expr) (axis : Option Axis) : Rule (Step Expr) := do
  let test ← nodeTest
  let predicates ← many (predicate inner)
  pure ⟨axis.getD .child, test, predicates⟩

theorem fullStep_eq (inner : Rule Expr) :
    fullStep inner = (do let axis ← Rule.optional axisOf; testStep inner axis) :=
  rfl

theorem testStep_alike {axis axis' : Option Axis} (hinner : AlikeInside n n' inner inner')
    (hs : s.length ≤ n) (hs' : s'.length ≤ n')
    (haxis : axis.getD .child = axis'.getD .child)
    (h : Same never .operator s.length s'.length (nodeTest s).parsed (nodeTest s').parsed) :
    Same never .operator s.length s'.length (testStep inner axis s).parsed
      (testStep inner' axis' s').parsed := by
  refine h.bind_of_never fun test t t' ht ht' hrest => ?_
  have hmany := predicates_alike hinner (by omega) (by omega) hrest
  rw [haxis]
  exact (hmany.mono ht ht' fun _ hc => hc).bind_pure fun predicates =>
    (⟨axis'.getD .child, test, predicates⟩ : Step Expr)

theorem exists_upTo (p : Rule α) (n : Nat) (s : List Char) :
    ∃ as t, (upTo p n s).parsed = some (as, t) := by
  induction n generalizing s with
  | zero => exact ⟨[], s, rfl⟩
  | succ n ih =>
    rcases hp : (p s).parsed with _ | ⟨a, t⟩
    · exact ⟨[], s, upTo_succ_of_none hp n⟩
    · obtain ⟨as, u, has⟩ := ih t
      exact ⟨a :: as, u, by rw [upTo_succ_of_some hp, has]; rfl⟩

theorem exists_many (p : Rule α) (s : List Char) : ∃ as t, (many p s).parsed = some (as, t) :=
  exists_upTo p _ s

theorem testStep_ne_none {axis : Option Axis} (h : (nodeTest s).parsed ≠ none) :
    (testStep inner axis s).parsed ≠ none := by
  obtain ⟨⟨test, t⟩, h⟩ := Option.ne_none_iff_exists'.mp h
  obtain ⟨ps, u, hps⟩ := exists_many (predicate inner) t
  rw [testStep, parsed_bind_of_some h, parsed_bind_of_some hps]
  simp

/-- A step in full, in front of two texts that start with one token. -/
theorem fullStep_alike (hinner : AlikeInside n n' inner inner') (hs : s.length ≤ n)
    (hs' : s'.length ≤ n') (hw : Next w s u) (hw' : Next w s' u')
    (hrest : Shortens (place.after w) u u') (hplace : place ≠ .operator) :
    Same never .operator s.length s'.length (fullStep inner s).parsed
      (fullStep inner' s').parsed := by
  have haxis := axisOf_alike hw hw' hrest
  rw [fullStep_eq, fullStep_eq]
  generalize hr : (axisOf s).parsed = r at haxis
  generalize hr' : (axisOf s').parsed = r' at haxis
  cases haxis with
  | refused =>
    rw [parsed_bind_of_some (optional_of_none hr), parsed_bind_of_some (optional_of_none hr')]
    exact testStep_alike hinner hs hs' rfl (nodeTest_alike hw hw' hrest hplace)
  | read ht ht' hnext =>
    rw [parsed_bind_of_some (optional_of_some hr), parsed_bind_of_some (optional_of_some hr')]
    exact (testStep_alike hinner (by omega) (by omega) rfl hnext.nodeTest_alike).mono
      (Nat.le_of_lt ht) (Nat.le_of_lt ht') fun _ hc => hc
  | spoilt _ _ hend => exact absurd hend not_goesOn_never

theorem shortStep_eq (s : List Char) :
    (shortStep s).parsed =
      (((Scan.word ['.', '.'] (skipBlanks s)).map fun r => (⟨.parent, .node, []⟩, r.2)).or
        ((Scan.char '.' (skipBlanks s)).map fun r => (⟨.self, .node, []⟩, r.2))) := by
  rw [shortStep, parsed_orElse, parsed_bind, parsed_bind, parsed_token, parsed_token]
  congr 1
  · cases Scan.word ['.', '.'] (skipBlanks s) <;> rfl
  · cases Scan.char '.' (skipBlanks s) <;> rfl

theorem isPadding_of_isDigit (hc : c.isDigit = true) : Number.isPadding c = false := by
  cases hpadding : Number.isPadding c with
  | false => rfl
  | true =>
    simp only [Number.isPadding, Bool.or_eq_true, decide_eq_true_eq] at hpadding
    rcases hpadding with ((rfl | rfl) | rfl) | rfl <;> exact absurd hc (by decide)

/-- A point in front of a digit is read as a step, and nothing goes on behind it. -/
theorem shortStep_alike (hw : Next w s u) (hw' : Next w s' u')
    (hrest : Shortens (place.after w) u u') :
    Same Char.isDigit .operator s.length s'.length (shortStep s).parsed (shortStep s').parsed := by
  rw [shortStep_eq, shortStep_eq, hw.scan (Whole.word (n := ['.', '.']) (by decide)),
    hw'.scan (Whole.word (n := ['.', '.']) (by decide)), hw.scan_local (Local.char '.'),
    hw'.scan_local (Local.char '.')]
  obtain ⟨c, w, rfl⟩ := List.exists_cons_of_ne_nil hw.kind.ne_nil
  by_cases hc : c = '.'
  · subst hc
    have hafter : place.after ('.' :: w) = .operator := by
      cases place <;> rfl
    rw [hafter] at hrest
    rcases hw.kind.head with hname | hdigit | hmark | ⟨-, hne, hdigits⟩ | hpair | ⟨rfl, -⟩
    · exact absurd hname (by decide)
    · exact absurd hdigit (by decide)
    · exact absurd hmark (by decide)
    · obtain ⟨d, ds, rfl⟩ := List.exists_cons_of_ne_nil hne
      have hd : d.isDigit = true := hdigits d List.mem_cons_self
      -- a point before digits begins a number, and the reader of steps stops inside it
      have hnone : Scan.word ['.', '.'] ('.' :: d :: ds) = none := by
        have hdot : d ≠ '.' := by
          rintro rfl
          exact absurd hd (by decide)
        simp [Scan.word, Scan.char, hdot]
      have hgoes : ∀ x : List Char, GoesOn Char.isDigit (d :: ds ++ x) := fun x =>
        ⟨d, _, skipBlanks_cons (isPadding_of_isDigit hd) _, hd⟩
      have hlength : ∀ {x y : List Char}, Next ('.' :: d :: ds) x y →
          (d :: ds ++ y).length < x.length := by
        intro x y hxy
        have hle := skipBlanks_length_le x
        rw [hxy.eq, List.cons_append, List.length_cons] at hle
        exact hle
      rw [hnone]
      exact .spoilt (hlength hw) (hlength hw') (hgoes u) (hgoes u')
    · obtain rfl : w = ['.'] := by simpa [pairs] using hpair
      exact .read hw.length_lt hw'.length_lt hrest
    · exact .read hw.length_lt hw'.length_lt hrest
  · rw [word_pair_of_ne hc, Scan.char, if_neg hc]
    exact .refused

/-! ## Steps and their abbreviations -/

theorem step_of_axis {axis : Axis} (hshort : (shortStep s).parsed = none)
    (haxis : (axisOf s).parsed = some (axis, u)) :
    (step inner s).parsed = (testStep inner (some axis) u).parsed := by
  rw [step, parsed_orElse, hshort, Option.none_or, fullStep_eq,
    parsed_bind_of_some (optional_of_some haxis)]

theorem step_of_test (hshort : (shortStep s).parsed = none) (haxis : (axisOf s).parsed = none) :
    (step inner s).parsed = (testStep inner none s).parsed := by
  rw [step, parsed_orElse, hshort, Option.none_or, fullStep_eq,
    parsed_bind_of_some (optional_of_none haxis)]

theorem word_of_head_ne (hw : w ∈ pairs) (h : (tokens s).head? ≠ some w) :
    Scan.word w (skipBlanks s) = none := by
  rcases hread : Scan.word w (skipBlanks s) with _ | ⟨a, t⟩
  · rfl
  · rw [(next_of_pair hw hread).tokens] at h
    exact absurd rfl h

theorem notNext_of_head_ne (hc : c ∈ solid) (h : (tokens s).head? ≠ some [c]) : NotNext c s := by
  intro hnext
  obtain ⟨t, hs⟩ := List.head?_eq_some_iff.mp hnext
  rw [(next_of_mark hc (mark_of_next hs)).tokens] at h
  exact h rfl

theorem shortStep_of_head (hs : skipBlanks s = c :: t) (hc : c ≠ '.') :
    (shortStep s).parsed = none := by
  rw [shortStep_eq, hs, word_pair_of_ne hc, Scan.char, if_neg hc]
  rfl

/-- Without two colons behind it, no name is an axis. -/
theorem axisOf_of_head_ne (hw : Next (c :: w) s u) (hat : c ≠ '@')
    (hcolons : (tokens u).head? ≠ some [':', ':']) : (axisOf s).parsed = none := by
  have hnamed : (namedAxis s).parsed = none := by
    rw [namedAxis, parsed_bind, parsed_token, hw.scan_local looksUp_axisName.isLocal]
    rcases haxis : axisName (c :: w) with _ | ⟨axis, v⟩
    · rfl
    obtain ⟨m, -, -, rfl | ⟨d, r, rfl, hd⟩⟩ :=
      looksUp_axisName.leftover _ u axis v hw.kind haxis
    · refine parsed_bind_of_none ?_
      rw [parsed_token, List.nil_append, word_of_head_ne (by decide) hcolons]
    · refine parsed_bind_of_none ?_
      rw [parsed_token, List.cons_append, skipBlanks_cons (by decide)]
      simp [Scan.word, Scan.char, hd]
  have hsign : (atSign s).parsed = none := by
    refine parsed_bind_of_none ?_
    rw [parsed_token, hw.eq]
    exact if_neg hat
  rw [axisOf, parsed_orElse, hnamed, hsign]
  rfl

theorem StartsTest.step (h : StartsTest (tokens s)) (inner : Rule Expr) :
    (Expr.step inner s).parsed = (testStep inner none s).parsed := by
  obtain ⟨w, u, test, hw, hread, hcolons, -⟩ := h.next
  obtain ⟨c, cs, rfl, hc⟩ := nameTest_head hread
  exact step_of_test (shortStep_of_head hw.eq (ne_of_name_or_star hc (by decide)))
    (axisOf_of_head_ne hw (ne_of_name_or_star hc (by decide)) hcolons)

theorem step_of_point (inner : Rule Expr) (h : Next ['.'] s u) :
    (step inner s).parsed = some (⟨.self, .node, []⟩, u) := by
  rw [step, parsed_orElse, shortStep_eq, h.scan (Whole.word (n := ['.', '.']) (by decide)),
    h.scan_local (Local.char '.')]
  rfl

theorem step_of_points (inner : Rule Expr) (h : Next ['.', '.'] s u) :
    (step inner s).parsed = some (⟨.parent, .node, []⟩, u) := by
  rw [step, parsed_orElse, shortStep_eq, h.scan (Whole.word (n := ['.', '.']) (by decide))]
  rfl

theorem step_of_blank (inner : Rule Expr) (hs : skipBlanks s = []) :
    (step inner s).parsed = none := by
  have hshort : (shortStep s).parsed = none := by
    rw [shortStep_eq, hs]
    rfl
  have haxis : (axisOf s).parsed = none := by
    rw [axisOf, parsed_orElse, namedAxis, atSign, parsed_bind, parsed_bind, parsed_token,
      parsed_token, hs]
    rfl
  rw [step_of_test hshort haxis]
  exact parsed_bind_of_none (nodeTest_of_blank hs)

theorem step_of_slash (inner : Rule Expr) (hs : skipBlanks s = '/' :: t) :
    (step inner s).parsed = none := by
  refine step_of_run [] hs (by decide) (by decide) ?_ (by decide) (by decide)
  rw [List.takeWhile_cons_of_neg (by decide)]

theorem step_of_axis_ahead (axis : Axis) (inner : Rule Expr)
    (h : Ahead [axis.name.toList, [':', ':']] s u) :
    (step inner s).parsed = (testStep inner (some axis) u).parsed := by
  refine step_of_axis ?_ (axisOf_of_ahead axis h)
  obtain ⟨t, hname, -⟩ := h
  obtain ⟨c, cs, heq, hc, -⟩ := isSimpleName_axis axis
  have hs := hname.eq
  rw [heq] at hs
  exact shortStep_of_start hc hs

/-- A full step without predicates. -/
theorem step_of_node_ahead (axis : Axis) (inner : Rule Expr)
    (h : Ahead [axis.name.toList, [':', ':'], "node".toList, ['('], [')']] s u)
    (hopen : (tokens u).head? ≠ some ['[']) :
    (step inner s).parsed = some (⟨axis, .node, []⟩, u) := by
  obtain ⟨t, hname, x, hcolons, hnode⟩ := h
  obtain ⟨test, htest, hread⟩ := kindTest_of_ahead (by decide) hnode
  obtain rfl : NodeTest.node = test := Option.some.inj htest
  have hnode : (nodeTest x).parsed = some (.node, u) := by
    rw [nodeTest, parsed_orElse, hread, Option.some_or]
  have hmany : (many (predicate inner) u).parsed = some ([], u) :=
    many_of_none (enclosed_of_notNext (notNext_of_head_ne (by decide) hopen))
  rw [step_of_axis_ahead axis inner ⟨t, hname, x, hcolons, rfl⟩, testStep,
    parsed_bind_of_some hnode, parsed_bind_of_some hmany]
  rfl

/-- A step and its abbreviation are read as the same step. -/
theorem step_alike (hinner : AlikeInside n n' inner inner') :
    Alike Char.isDigit .operand .operator (n + 1) (n' + 1) (step inner) (step inner') := by
  intro s s' hs hs' h
  cases h.shortening with
  | blank hs hs' => exact .of_refused (step_of_blank inner hs) (step_of_blank inner' hs')
  | token hw hw' hrest =>
    exact (shortStep_alike hw hw' hrest).orElse fun _ _ =>
      (fullStep_alike hinner (by omega) (by omega) hw hw' hrest (by decide)).of_never
        (Nat.le_refl _) (Nat.le_refl _)
  | child hahead htest hrest =>
    have hlength := hahead.length_le
    rw [tokens_child] at hahead
    rw [htest.step, step_of_axis_ahead .child inner hahead]
    exact (testStep_alike hinner (by omega) (by omega) rfl hrest.nodeTest_alike).of_never
      hlength (Nat.le_refl _)
  | @attributes _ _ u u' hahead hat htest hrest =>
    have hlength := hahead.length_le
    have hlength' := hat.length_lt
    rw [tokens_attribute] at hahead
    have hshort' : (shortStep s').parsed = none := shortStep_of_head hat.eq (by decide)
    have haxis' : (axisOf s').parsed = some (.attributes, u') := by
      rw [axisOf, parsed_orElse, namedAxis, parsed_bind, parsed_token,
        hat.scan_local looksUp_axisName.isLocal, atSign, parsed_bind, parsed_token,
        hat.scan (Whole.char (by decide))]
      rfl
    rw [step_of_axis hshort' haxis', step_of_axis_ahead .attributes inner hahead]
    exact (testStep_alike hinner (by omega) (by omega) rfl hrest.nodeTest_alike).of_never
      hlength (Nat.le_of_lt hlength')
  | self hahead hdot hopen hrest =>
    rw [tokens_self] at hahead
    rw [step_of_node_ahead .self inner hahead hopen, step_of_point inner' hdot]
    exact .read hahead.length_lt hdot.length_lt hrest
  | parent hahead hdots hopen hrest =>
    rw [tokens_parent] at hahead
    rw [step_of_node_ahead .parent inner hahead hopen, step_of_points inner' hdots]
    exact .read hahead.length_lt hdots.length_lt hrest
  | anyDepth _ hahead hslash =>
    rw [tokens_anyDepth] at hahead
    obtain ⟨t, ht, -⟩ := hahead
    exact .of_refused (step_of_slash inner ht.eq) (step_of_slash inner' hslash.eq)

/-! ## Where no step starts -/

theorem Same.right_ne_none {dead : Char → Bool} {r r' : Option (α × List Char)}
    (h : Same dead place n n' r r') (hr : r' ≠ none) : r ≠ none := by
  cases h with
  | refused => exact hr
  | read | spoilt => simp

/-- A name or a star in front of a text at which no step starts is the name of an axis. -/
theorem colons_of_refused (hw : Next (c :: w) s u) (hc : isNameStart c = true ∨ c = '*')
    (hnone : (step inner s).parsed = none) : ∃ x, Next [':', ':'] u x := by
  by_contra hnot
  have hcolons : (tokens u).head? ≠ some [':', ':'] := by
    intro hhead
    obtain ⟨ts, hts⟩ := List.head?_eq_some_iff.mp hhead
    obtain ⟨x, hx, -⟩ := tokens_eq_cons_iff.mp hts
    exact hnot ⟨x, hx⟩
  obtain ⟨test, v, htest⟩ : ∃ test v, nameTest (c :: w) = some (test, v) := by
    rcases hc with hc | rfl
    · obtain ⟨r, hr⟩ := exists_nameTest hc w
      exact ⟨r.1, r.2, hr⟩
    · exact ⟨.any, w, rfl⟩
  have haxis := axisOf_of_head_ne hw (ne_of_name_or_star hc (by decide)) hcolons
  rw [step_of_test (shortStep_of_head hw.eq (ne_of_name_or_star hc (by decide))) haxis] at hnone
  refine testStep_ne_none ?_ hnone
  rw [nodeTest, parsed_orElse, parsed_token, hw.scan Whole.nameTest, htest]
  cases (kindTest s).parsed <;> simp

theorem Shortens.colons (h : Shortens .operator s s') (hu : Next [':', ':'] s u) :
    ∃ u', Next [':', ':'] s' u' ∧ Shortens .test u u' := by
  cases h.shortening with
  | blank hs =>
    have heq := hu.eq
    rw [hs] at heq
    cases heq
  | token hw hw' hrest =>
    obtain ⟨rfl, rfl⟩ := hw.unique hu
    rw [Place.after_colons] at hrest
    exact ⟨_, hw', hrest⟩
  | anyDepth _ hahead =>
    rw [tokens_anyDepth] at hahead
    obtain ⟨t, ht, -⟩ := hahead
    exact absurd (ht.unique hu).1 (by decide)

/-- Where no step starts, an operand does not either but by a mark, and the texts match behind an
operand too. -/
theorem step_idle (h : Shortens .operand s s') (hnone : (step inner s).parsed = none) :
    Shortens .operator s s' := by
  unfold Shortens
  cases h.shortening with
  | blank hs hs' =>
    rw [tokens_of_blank hs, tokens_of_blank hs']
    exact .nil
  | @token _ _ _ w u u' hw hw' hrest =>
    rw [hw.tokens, hw'.tokens]
    obtain ⟨c, cs, rfl⟩ := List.exists_cons_of_ne_nil hw.kind.ne_nil
    -- a name that no step begins with has colons behind it
    by_cases hc : isNameStart c = true ∨ c = '*'
    · obtain ⟨x, hx⟩ := colons_of_refused hw hc hnone
      refine .token ?_
      rw [after_of_name_or_star hc (by decide) cs] at hrest
      obtain ⟨x', hx', htest⟩ := hrest.colons hx
      rw [hx.tokens, hx'.tokens]
      refine .token ?_
      rw [Place.after_colons]
      exact htest
    · exact .token (Place.after_eq .operand .operator hc cs ▸ hrest)
  | child hahead htest hrest =>
    rw [tokens_child] at hahead
    rw [step_of_axis_ahead .child inner hahead] at hnone
    refine absurd hnone (testStep_ne_none ?_)
    exact hrest.nodeTest_alike.right_ne_none (nodeTest_of_startsTest htest)
  | attributes hahead _ htest hrest =>
    rw [tokens_attribute] at hahead
    rw [step_of_axis_ahead .attributes inner hahead] at hnone
    refine absurd hnone (testStep_ne_none ?_)
    exact hrest.nodeTest_alike.right_ne_none (nodeTest_of_startsTest htest)
  | self hahead _ hopen =>
    rw [tokens_self] at hahead
    rw [step_of_node_ahead .self inner hahead hopen] at hnone
    cases hnone
  | parent hahead _ hopen =>
    rw [tokens_parent] at hahead
    rw [step_of_node_ahead .parent inner hahead hopen] at hnone
    cases hnone
  | anyDepth hplace hahead hslash hrest =>
    rw [hahead.tokens, hslash.tokens]
    exact .anyDepth (by decide) hrest

end ReactiveForm.Expr
