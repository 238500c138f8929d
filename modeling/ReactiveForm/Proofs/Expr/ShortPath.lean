import ReactiveForm.Proofs.Expr.ShortStep

/-!
# Abbreviated paths

A double slash takes up two separators and the step between them, so that the rounds in which two
texts are read do not match one by one; the steps that are gathered do.
-/

set_option autoImplicit false

namespace ReactiveForm.Expr

open Rule

variable {α : Type} {place : Place} {s s' t t' u u' v w x : List Char} {c : Char} {n n' : Nat}
  {inner inner' : Rule Expr}

/-! ## Separators -/

theorem Lexeme.slash (h : Lexeme ('/' :: w) u) : w = [] ∨ w = ['/'] := by
  rcases h.head with hname | hdigit | hmark | ⟨hdot, -⟩ | hpair | ⟨hnil, -⟩
  · exact absurd hname (by decide)
  · exact absurd hdigit (by decide)
  · exact absurd hmark (by decide)
  · exact absurd hdot (by decide)
  · exact .inr (by simpa [pairs] using hpair)
  · exact .inl hnil

theorem separator_eq (s : List Char) :
    (separator s).parsed =
      (((Scan.word ['/', '/'] (skipBlanks s)).map fun r => ([Step.anyDepth], r.2)).or
        ((Scan.char '/' (skipBlanks s)).map fun r => ([], r.2))) := by
  rw [separator, parsed_orElse, parsed_bind, parsed_bind, parsed_token, parsed_token]
  congr 1
  · cases Scan.word ['/', '/'] (skipBlanks s) <;> rfl
  · cases Scan.char '/' (skipBlanks s) <;> rfl

theorem word_of_slash (h : Next ['/'] s u) : Scan.word ['/', '/'] (skipBlanks s) = none :=
  h.scan (Whole.word (by decide))

theorem word_of_slashes (h : Next ['/', '/'] s u) :
    Scan.word ['/', '/'] (skipBlanks s) = some ((), u) :=
  h.scan (Whole.word (by decide))

theorem char_of_slash (h : Next ['/'] s u) : Scan.char '/' (skipBlanks s) = some ((), u) :=
  h.scan_local (Local.char '/')

theorem separator_of_next (h : Next ['/'] s u) : (separator s).parsed = some ([], u) := by
  rw [separator_eq, word_of_slash h, char_of_slash h]
  rfl

theorem separator_of_slashes (h : Next ['/', '/'] s u) :
    (separator s).parsed = some ([Step.anyDepth], u) := by
  rw [separator_eq, word_of_slashes h]
  rfl

theorem nextStep_of_refused {between : List (Step Expr)}
    (h : (separator s).parsed = some (between, u)) (hr : (step inner u).parsed = none) :
    (nextStep inner s).parsed = none :=
  (parsed_bind_of_some h).trans (parsed_bind_of_none hr)

theorem nextStep_of_read {between : List (Step Expr)} {a : Step Expr}
    (h : (separator s).parsed = some (between, u)) (hr : (step inner u).parsed = some (a, t)) :
    (nextStep inner s).parsed = some (between ++ [a], t) :=
  (parsed_bind_of_some h).trans (parsed_bind_of_some hr)

/-- The two slashes of a double one. -/
def slash : Char → Bool := (· == '/')

theorem Next.goesOn_slash (h : Next ('/' :: w) s u) : GoesOn slash s :=
  ⟨'/', w ++ u, h.eq, rfl⟩

theorem endsPaths_of_slash (c : Char) (h : slash c = true) : endsPaths c = true := by
  obtain rfl : c = '/' := by simpa [slash] using h
  decide

theorem endsPaths_of_isDigit (c : Char) (h : c.isDigit = true) : endsPaths c = true := by
  rw [endsPaths, h, Bool.true_or]

theorem nextStep_of_digit (h : GoesOn Char.isDigit s) : (nextStep inner s).parsed = none :=
  nextStep_of_notNext (h.notNext (by decide))

/-! ## Further steps -/

/-- How two texts go on behind a step or a primary expression: with nothing that belongs to the
path; or with two slashes of which only the full form makes a step; or with steps. -/
inductive Further (inner inner' : Rule Expr) (s s' : List Char) : Prop where
  | stop : (nextStep inner s).parsed = none → (nextStep inner' s').parsed = none →
      Further inner inner' s s'
  | half {x u' : List Char} : Repeats (nextStep inner) s [[Step.anyDepth]] x →
      x.length < s.length → GoesOn slash x → (nextStep inner' s').parsed = none →
      Next ['/', '/'] s' u' → Further inner inner' s s'
  | steps {as as' : List (List (Step Expr))} {t t' : List Char} : as ≠ [] → as' ≠ [] →
      Repeats (nextStep inner) s as t → Repeats (nextStep inner') s' as' t' →
      Same endsPaths .operator s.length s'.length (some (as.flatten, t)) (some (as'.flatten, t')) →
      Further inner inner' s s'

/-- One more round before those that follow. -/
theorem Further.cons {a b : List (List (Step Expr))} (h : Further inner inner' t t')
    (ht : t.length < s.length) (ht' : t'.length < s'.length) (ha : a ≠ []) (hb : b ≠ [])
    (heq : a.flatten = b.flatten)
    (hread : ∀ {as u}, Repeats (nextStep inner) t as u → Repeats (nextStep inner) s (a ++ as) u)
    (hread' : ∀ {as u}, Repeats (nextStep inner') t' as u →
      Repeats (nextStep inner') s' (b ++ as) u)
    (hrest : Shortens .operator t t') : Further inner inner' s s' := by
  cases h with
  | stop hstop hstop' =>
    have hleft := hread (.stop hstop)
    have hright := hread' (.stop hstop')
    rw [List.append_nil] at hleft hright
    refine .steps ha hb hleft hright ?_
    rw [heq]
    exact .read ht ht' hrest
  | half hsteps hx hslash hstop' hslashes =>
    refine .steps (by simp) (by simpa using hb) (hread hsteps) (hread' (.stop hstop')) ?_
    exact .spoilt (Nat.lt_trans hx ht) ht' (hslash.imp endsPaths_of_slash)
      (hslashes.goesOn_slash.imp endsPaths_of_slash)
  | steps _ _ hsteps hsteps' hsame =>
    refine .steps (by simp [ha]) (by simp [hb]) (hread hsteps) (hread' hsteps') ?_
    rw [List.flatten_append, List.flatten_append, heq]
    exact (hsame.map (b.flatten ++ ·)).mono (Nat.le_of_lt ht) (Nat.le_of_lt ht') fun _ hc => hc

/-- A double slash stands for a step of its own. -/
theorem nextStep_of_anyDepth (inner : Rule Expr)
    (h : Ahead (tokens "/descendant-or-self::node()/".toList) s u) :
    ∃ x, Next ['/'] x u ∧ x.length < s.length ∧
      (nextStep inner s).parsed = some ([Step.anyDepth], x) := by
  rw [tokens_anyDepth] at h
  obtain ⟨t, hslash, a, haxis, b, hcolons, c, hnode, d, hopen, x, hclose, u, hnext, rfl⟩ := h
  have hahead : Ahead [Axis.descendantOrSelf.name.toList, [':', ':'], "node".toList, ['('], [')']]
      t x := ⟨a, haxis, b, hcolons, c, hnode, d, hopen, x, hclose, rfl⟩
  have hplain : (tokens x).head? ≠ some ['['] := by
    rw [hnext.tokens]
    simp
  refine ⟨x, hnext, Nat.lt_trans hahead.length_lt hslash.length_lt, ?_⟩
  exact nextStep_of_read (separator_of_next hslash)
    (step_of_node_ahead .descendantOrSelf inner hahead hplain)

/-- Two separators that are alike, with steps behind them. -/
theorem Further.of_separator {between : List (Step Expr)} (hinner : AlikeInside n n' inner inner')
    (hs : s.length ≤ n) (hs' : s'.length ≤ n') (hu : u.length < s.length)
    (hu' : u'.length < s'.length) (hsep : (separator s).parsed = some (between, u))
    (hsep' : (separator s').parsed = some (between, u')) (hrest : Shortens .operand u u')
    (ih : ∀ t t', t.length < s.length → t'.length ≤ n' → Shortens .operator t t' →
      Further inner inner' t t') : Further inner inner' s s' := by
  have hstep := step_alike hinner u u' (by omega) (by omega) hrest
  generalize hr : (step inner u).parsed = r at hstep
  generalize hr' : (step inner' u').parsed = r' at hstep
  cases hstep with
  | refused => exact .stop (nextStep_of_refused hsep hr) (nextStep_of_refused hsep' hr')
  | @read a t t' ht ht' hrest =>
    refine (ih t t' (by omega) (by omega) hrest).cons (a := [between ++ [a]]) (by omega) (by omega)
      (by simp) (by simp) rfl ?_ ?_ hrest
    · exact fun has => .next (nextStep_of_read hsep hr) (by omega) has
    · exact fun has => .next (nextStep_of_read hsep' hr') (by omega) has
  | @spoilt a a' t t' ht ht' hend hend' =>
    refine .steps (by simp) (by simp)
      (.next (nextStep_of_read hsep hr) (by omega) (.stop (nextStep_of_digit hend)))
      (.next (nextStep_of_read hsep' hr') (by omega) (.stop (nextStep_of_digit hend'))) ?_
    exact .spoilt (by omega) (by omega) (hend.imp endsPaths_of_isDigit)
      (hend'.imp endsPaths_of_isDigit)

/-- Whatever goes on from a path goes on from its abbreviation. -/
theorem further_alike (hinner : AlikeInside n n' inner inner') (hs : s.length ≤ n)
    (hs' : s'.length ≤ n') (h : Shortens .operator s s') : Further inner inner' s s' := by
  induction hlength : s.length using Nat.strong_induction_on generalizing s s' with
  | _ k ih =>
    subst hlength
    have ih : ∀ t t', t.length < s.length → t'.length ≤ n' → Shortens .operator t t' →
        Further inner inner' t t' := fun t t' ht ht' hrest =>
      ih t.length ht (by omega) ht' hrest rfl
    cases h.shortening with
    | blank hs hs' =>
      exact .stop (nextStep_of_notNext (notNext_of_nil hs))
        (nextStep_of_notNext (notNext_of_nil hs'))
    | @token _ _ _ w u u' hw hw' hrest =>
      obtain ⟨c, cs, rfl⟩ := List.exists_cons_of_ne_nil hw.kind.ne_nil
      by_cases hc : c = '/'
      · subst hc
        rcases hw.kind.slash with rfl | rfl
        · exact .of_separator hinner hs hs' hw.length_lt hw'.length_lt (separator_of_next hw)
            (separator_of_next hw') hrest ih
        · exact .of_separator hinner hs hs' hw.length_lt hw'.length_lt (separator_of_slashes hw)
            (separator_of_slashes hw') hrest ih
      · exact .stop (nextStep_of_notNext (notNext_of_ne hw.eq hc))
          (nextStep_of_notNext (notNext_of_ne hw'.eq hc))
    -- the step written out takes a round of its own, the two slashes are one with what follows
    | @anyDepth _ _ _ u u' _ hahead hslashes hrest =>
      obtain ⟨x, hx, hlt, hfirst⟩ := nextStep_of_anyDepth inner hahead
      have hlength := hx.length_lt
      have hlength' := hslashes.length_lt
      have hstep := step_alike hinner u u' (by omega) (by omega) hrest
      have hsep := separator_of_next hx
      have hsep' := separator_of_slashes hslashes
      generalize hr : (step inner u).parsed = r at hstep
      generalize hr' : (step inner' u').parsed = r' at hstep
      cases hstep with
      | refused =>
        exact .half (.next hfirst hlt (.stop (nextStep_of_refused hsep hr))) hlt hx.goesOn_slash
          (nextStep_of_refused hsep' hr') hslashes
      | @read a t t' ht ht' hrest =>
        refine (ih t t' (by omega) (by omega) hrest).cons (a := [[Step.anyDepth], [a]])
          (b := [[Step.anyDepth, a]]) (by omega) (by omega) (by simp) (by simp) rfl ?_ ?_ hrest
        · exact fun has => .next hfirst hlt (.next (nextStep_of_read hsep hr) (by omega) has)
        · exact fun has => .next (nextStep_of_read hsep' hr') (by omega) has
      | @spoilt a a' t t' ht ht' hend hend' =>
        have hnext := nextStep_of_read hsep hr
        refine .steps (by simp) (by simp)
          (.next hfirst hlt (.next hnext (by omega) (.stop (nextStep_of_digit hend))))
          (.next (nextStep_of_read hsep' hr') (by omega) (.stop (nextStep_of_digit hend'))) ?_
        exact .spoilt (by omega) (by omega) (hend.imp endsPaths_of_isDigit)
          (hend'.imp endsPaths_of_isDigit)

/-! ## Relative paths -/

theorem relativePath_alike (hinner : AlikeInside n n' inner inner') :
    Alike endsPaths .operand .operator (n + 1) (n' + 1) (relativePath inner)
      (relativePath inner') := by
  intro s s' hs hs' h
  have hstep := step_alike hinner s s' hs hs' h
  generalize hr : (step inner s).parsed = r at hstep
  generalize hr' : (step inner' s').parsed = r' at hstep
  cases hstep with
  | refused => exact .of_refused (parsed_bind_of_none hr) (parsed_bind_of_none hr')
  | @read a t t' ht ht' hrest =>
    -- `half`: only the text written out has one more step, and stops at a slash
    cases further_alike hinner (by omega) (by omega) hrest with
    | stop hstop hstop' =>
      rw [relativePath_of_some hr (.stop hstop), relativePath_of_some hr' (.stop hstop')]
      exact .read ht ht' hrest
    | half hsteps hx hslash hstop' hslashes =>
      rw [relativePath_of_some hr hsteps, relativePath_of_some hr' (.stop hstop')]
      exact .spoilt (by omega) ht' (hslash.imp endsPaths_of_slash)
        (hslashes.goesOn_slash.imp endsPaths_of_slash)
    | steps _ _ hsteps hsteps' hsame =>
      rw [relativePath_of_some hr hsteps, relativePath_of_some hr' hsteps']
      exact (hsame.map (a :: ·)).mono (Nat.le_of_lt ht) (Nat.le_of_lt ht') fun _ hc => hc
  | spoilt ht ht' hend hend' =>
    rw [relativePath_of_some hr (.stop (nextStep_of_digit hend)),
      relativePath_of_some hr' (.stop (nextStep_of_digit hend'))]
    exact .spoilt ht ht' (hend.imp endsPaths_of_isDigit) (hend'.imp endsPaths_of_isDigit)

theorem step_of_relativePath (h : (relativePath inner s).parsed = none) :
    (step inner s).parsed = none := by
  rcases hr : (step inner s).parsed with _ | ⟨a, t⟩
  · rfl
  · obtain ⟨as, u, has⟩ := exists_many (nextStep inner) t
    have hsome : (relativePath inner s).parsed = some (a :: as.flatten, u) :=
      (parsed_bind_of_some hr).trans (parsed_bind_of_some has)
    cases h.symm.trans hsome

/-! ## Paths behind a separator -/

/-- The first of several rounds, taken apart. -/
theorem exists_first {as : List (List (Step Expr))} (hne : as ≠ [])
    (h : Repeats (nextStep inner) s as t) :
    ∃ between u steps, (separator s).parsed = some (between, u) ∧
      (relativePath inner u).parsed = some (steps, t) ∧ as.flatten = between ++ steps := by
  obtain ⟨a, as, x, hfirst, hrest, rfl⟩ : ∃ a bs x, (nextStep inner s).parsed = some (a, x) ∧
      Repeats (nextStep inner) x bs t ∧ as = a :: bs := by
    cases h with
    | stop => exact absurd rfl hne
    | last hfirst _ hstop => exact ⟨_, [], _, hfirst, .stop hstop, rfl⟩
    | next hfirst _ hrest => exact ⟨_, _, _, hfirst, hrest, rfl⟩
  simp only [nextStep, parsed_bind, parsed_pure, Option.bind_eq_some_iff] at hfirst
  obtain ⟨⟨between, u⟩, hsep, ⟨st, y⟩, hst, heq⟩ := hfirst
  obtain ⟨rfl, rfl⟩ : between ++ [st] = a ∧ y = x := by simpa using heq
  exact ⟨between, u, _, hsep, relativePath_of_some hst hrest, by simp⟩

theorem continuation_of_repeats {as : List (List (Step Expr))} (hne : as ≠ [])
    (h : Repeats (nextStep inner) s as t) :
    (continuation inner s).parsed = some (as.flatten, t) := by
  obtain ⟨between, u, steps, hsep, hsteps, heq⟩ := exists_first hne h
  rw [heq]
  exact (parsed_bind_of_some hsep).trans (parsed_bind_of_some hsteps)

theorem continuation_of_refused (h : (nextStep inner s).parsed = none) :
    (continuation inner s).parsed = none := by
  rcases hsep : (separator s).parsed with _ | ⟨between, u⟩
  · exact parsed_bind_of_none hsep
  · rcases hr : (step inner u).parsed with _ | ⟨a, t⟩
    · exact (parsed_bind_of_some hsep).trans (parsed_bind_of_none (parsed_bind_of_none hr))
    · cases h.symm.trans (nextStep_of_read hsep hr)

theorem absolutePath_of_slash (h : Scan.word ['/', '/'] (skipBlanks s) = none)
    (hslash : Scan.char '/' (skipBlanks s) = some ((), u)) :
    (absolutePath inner s).parsed =
      (Rule.optional (relativePath inner) u).parsed.map fun q =>
        (.path .root (q.1.getD []), q.2) := by
  rw [absolutePath, parsed_orElse, parsed_bind_of_none (by rw [parsed_token, h]), Option.none_or,
    parsed_bind_of_some (a := ()) (t := u) (by rw [parsed_token, hslash]), parsed_bind]
  cases (Rule.optional (relativePath inner) u).parsed <;> rfl

theorem absolutePath_of_slashes (h : Scan.word ['/', '/'] (skipBlanks s) = some ((), u)) :
    (absolutePath inner s).parsed =
      ((relativePath inner u).parsed.map fun q => (.path .root (Step.anyDepth :: q.1), q.2)).or
        (some (.path .root [], '/' :: u)) := by
  have hs := word_eq_some_iff.mp h
  have hnone : (relativePath inner ('/' :: u)).parsed = none :=
    parsed_bind_of_none (step_of_slash inner (skipBlanks_cons (by decide) u))
  rw [absolutePath, parsed_orElse]
  congr 1
  · rw [parsed_bind_of_some (a := ()) (t := u) (by rw [parsed_token, h]), parsed_bind]
    cases (relativePath inner u).parsed <;> rfl
  · rw [parsed_bind_of_some (a := ()) (t := '/' :: u) (by rw [parsed_token, hs]; rfl)]
    exact parsed_bind_of_some (optional_of_none hnone)

/-- A path from the root is told by what goes on behind a separator. -/
theorem absolutePath_of_repeats {as : List (List (Step Expr))} (hne : as ≠ [])
    (h : Repeats (nextStep inner) s as t) :
    (absolutePath inner s).parsed = some (.path .root as.flatten, t) := by
  obtain ⟨between, u, steps, hsep, hsteps, heq⟩ := exists_first hne h
  rw [separator_eq, Option.or_eq_some_iff] at hsep
  rw [heq]
  rcases hsep with hdouble | ⟨hdouble, hsingle⟩
  · obtain ⟨⟨_, v⟩, hword, hpair⟩ := Option.map_eq_some_iff.mp hdouble
    obtain ⟨rfl, rfl⟩ := Prod.mk.inj hpair
    rw [absolutePath_of_slashes hword, hsteps]
    rfl
  · obtain ⟨⟨_, v⟩, hchar, hpair⟩ := Option.map_eq_some_iff.mp hsingle
    obtain ⟨rfl, rfl⟩ := Prod.mk.inj hpair
    rw [absolutePath_of_slash (Option.map_eq_none_iff.mp hdouble) hchar, optional_of_some hsteps]
    rfl

theorem step_of_nextStep {between : List (Step Expr)}
    (hsep : (separator s).parsed = some (between, u)) (h : (nextStep inner s).parsed = none) :
    (step inner u).parsed = none := by
  rcases hr : (step inner u).parsed with _ | ⟨a, t⟩
  · rfl
  · cases h.symm.trans (nextStep_of_read hsep hr)

theorem absolutePath_of_refused (hslash : Next ['/'] s u)
    (h : (nextStep inner s).parsed = none) :
    (absolutePath inner s).parsed = some (.path .root [], u) := by
  have hnone := step_of_nextStep (separator_of_next hslash) h
  have hpath : (relativePath inner u).parsed = none := parsed_bind_of_none hnone
  rw [absolutePath_of_slash (word_of_slash hslash) (char_of_slash hslash), optional_of_none hpath]
  rfl

theorem absolutePath_of_refused_slashes (hslashes : Next ['/', '/'] s u)
    (h : (nextStep inner s).parsed = none) :
    (absolutePath inner s).parsed = some (.path .root [], '/' :: u) := by
  have hnone := step_of_nextStep (separator_of_slashes hslashes) h
  have hpath : (relativePath inner u).parsed = none := parsed_bind_of_none hnone
  rw [absolutePath_of_slashes (word_of_slashes hslashes), hpath]
  rfl

theorem goesOn_slash_cons (u : List Char) : GoesOn slash ('/' :: u) :=
  ⟨'/', u, skipBlanks_cons (by decide) u, rfl⟩

theorem Next.length_slashes (h : Next ['/', '/'] s u) : ('/' :: u).length < s.length := by
  have hle := skipBlanks_length_le s
  rw [h.eq] at hle
  exact hle

theorem absolutePath_of_further (h : Further inner inner' s s')
    (hstop : (nextStep inner s).parsed = none → (nextStep inner' s').parsed = none →
      Same endsPaths .operator s.length s'.length (absolutePath inner s).parsed
        (absolutePath inner' s').parsed) :
    Same endsPaths .operator s.length s'.length (absolutePath inner s).parsed
      (absolutePath inner' s').parsed := by
  cases h with
  | stop h h' => exact hstop h h'
  | half hsteps hx hslash hstop' hslashes =>
    rw [absolutePath_of_repeats (by simp) hsteps, absolutePath_of_refused_slashes hslashes hstop']
    exact .spoilt hx hslashes.length_slashes (hslash.imp endsPaths_of_slash)
      ((goesOn_slash_cons _).imp endsPaths_of_slash)
  | steps hne hne' hsteps hsteps' hsame =>
    rw [absolutePath_of_repeats hne hsteps, absolutePath_of_repeats hne' hsteps']
    exact hsame.map (Expr.path .root)

theorem OnlyStep.notNext_slash (h : OnlyStep s) : NotNext '/' s := by
  cases h with
  | name hw hread =>
    obtain ⟨c, cs, rfl, hc⟩ := nameTest_head hread
    refine notNext_of_ne hw.eq ?_
    rintro rfl
    revert hc
    decide
  | mark hw hmem =>
    simp only [List.mem_cons, List.not_mem_nil, or_false] at hmem
    rcases hmem with rfl | rfl | rfl <;> exact notNext_of_ne hw.eq (by decide)

theorem absolutePath_alike (hinner : AlikeInside n n' inner inner') :
    Alike endsPaths .operand .operator (n + 1) (n' + 1) (absolutePath inner)
      (absolutePath inner') := by
  intro s s' hs hs' h
  rcases h.shortening.sides with ⟨hs, hs'⟩ | ⟨w, u, u', hw, hw', hrest⟩ | ⟨hstep, hstep'⟩ |
    ⟨_, u, u', -, hahead, hslashes, -, hrest⟩
  · exact .of_refused (absolutePath_of_notNext (notNext_of_nil hs))
      (absolutePath_of_notNext (notNext_of_nil hs'))
  · obtain ⟨c, cs, rfl⟩ := List.exists_cons_of_ne_nil hw.kind.ne_nil
    -- a path from the root starts with a slash in both texts or in neither
    by_cases hc : c = '/'
    · subst hc
      have hafter : Place.operand.after ('/' :: cs) = Place.operator.after ('/' :: cs) :=
        Place.after_eq _ _ (by decide) cs
      have hop : Shortens .operator s s' := by
        unfold Shortens
        rw [hw.tokens, hw'.tokens]
        exact .token (hafter ▸ hrest)
      refine absolutePath_of_further (further_alike hinner (by omega) (by omega) hop)
        fun hstop hstop' => ?_
      rcases hw.kind.slash with rfl | rfl
      · rw [absolutePath_of_refused hw hstop, absolutePath_of_refused hw' hstop']
        exact .read hw.length_lt hw'.length_lt
          (step_idle hrest (step_of_nextStep (separator_of_next hw) hstop))
      · rw [absolutePath_of_refused_slashes hw hstop, absolutePath_of_refused_slashes hw' hstop']
        exact .spoilt hw.length_slashes hw'.length_slashes
          ((goesOn_slash_cons u).imp endsPaths_of_slash)
          ((goesOn_slash_cons u').imp endsPaths_of_slash)
    · exact .of_refused (absolutePath_of_notNext (notNext_of_ne hw.eq hc))
        (absolutePath_of_notNext (notNext_of_ne hw'.eq hc))
  · exact .of_refused (absolutePath_of_notNext hstep.notNext_slash)
      (absolutePath_of_notNext hstep'.notNext_slash)
  · have hop : Shortens .operator s s' := by
      unfold Shortens
      rw [hahead.tokens, hslashes.tokens]
      exact .anyDepth (by decide) hrest
    refine absolutePath_of_further (further_alike hinner (by omega) (by omega) hop)
      fun hstop _ => ?_
    obtain ⟨x, -, -, hfirst⟩ := nextStep_of_anyDepth inner hahead
    cases hstop.symm.trans hfirst

end ReactiveForm.Expr
