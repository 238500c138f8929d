import ReactiveForm.Proofs.Expr.Scanner

/-!
# Abbreviations

A location path can be written in full or in short: the axis to the children is left out, `@`
stands for the axis to the attributes, `.` and `..` for steps to the node itself and to its parent,
and `//` for a step to any depth. `Abbreviates` relates the tokens of two texts of which the second
abbreviates the first in some places, or in none, and `AbbreviatesAt` keeps track of what may come
next.

Two rules are followed side by side on two such texts. Either both are refused, or both read the
same and leave texts of which one abbreviates the other, or both are `spoilt`: they leave a text at
which nothing goes on.
-/

set_option autoImplicit false

namespace ReactiveForm.Expr

open Rule

/-! ## Tokens of two texts -/

/-- The second row of tokens is the first one with some of its steps abbreviated. -/
inductive Abbreviates : List (List Char) → List (List Char) → Prop where
  | nil : Abbreviates [] []
  | token {w : List Char} {ts us : List (List Char)} :
      Abbreviates ts us → Abbreviates (w :: ts) (w :: us)
  | child {ts us : List (List Char)} :
      Abbreviates ts us → Abbreviates (tokens "child::".toList ++ ts) us
  | attributes {ts us : List (List Char)} :
      Abbreviates ts us → Abbreviates (tokens "attribute::".toList ++ ts) (['@'] :: us)
  /-- Only without a predicate. -/
  | self {ts us : List (List Char)} : ts.head? ≠ some ['['] →
      Abbreviates ts us → Abbreviates (tokens "self::node()".toList ++ ts) (['.'] :: us)
  | parent {ts us : List (List Char)} : ts.head? ≠ some ['['] →
      Abbreviates ts us → Abbreviates (tokens "parent::node()".toList ++ ts) (['.', '.'] :: us)
  | anyDepth {ts us : List (List Char)} :
      Abbreviates ts us →
      Abbreviates (tokens "/descendant-or-self::node()/".toList ++ ts) (['/', '/'] :: us)

/-- What may come next in an expression. -/
inductive Place where
  | operand
  /-- A node test, behind an axis. -/
  | test
  /-- An operator or a mark that goes on from an operand. -/
  | operator
  deriving DecidableEq

/-- What may come behind a token. A name or a star is an operator only behind an operand. -/
def Place.after (place : Place) : List Char → Place
  | [] => place
  | c :: _ =>
    if c = ':' ∨ c = '@' then .test
    else if isNameStart c ∨ c = '*' then
      if place = .operator then .operand else .operator
    else if c.isDigit ∨ c ∈ ['"', '\'', '$', '.', ')', ']'] then .operator
    else .operand

theorem Place.after_colons (place : Place) : place.after [':', ':'] = .test := by
  cases place <;> rfl

/-- Only a name or a star depends on what comes before it. -/
theorem Place.after_eq (place place' : Place) {c : Char} (hc : ¬ (isNameStart c = true ∨ c = '*'))
    (w : List Char) : place.after (c :: w) = place'.after (c :: w) := by
  rw [Place.after, Place.after, if_neg hc, if_neg hc]

/-- The tokens start with a node test: a name or a wildcard that is neither called nor an axis, or
a node type with its parentheses. -/
inductive StartsTest : List (List Char) → Prop where
  | name {w : List Char} {ts : List (List Char)} {test : NodeTest} :
      nameTest w = some (test, []) → ts.head? ≠ some ['('] → ts.head? ≠ some [':', ':'] →
      StartsTest (w :: ts)
  | kind {name : String} {ts : List (List Char)} :
      name ∈ nodeTypes.map Prod.fst → StartsTest (name.toList :: ['('] :: [')'] :: ts)

/-- The second row of tokens is the first one with some of its steps abbreviated, and where a step
is abbreviated, one may come. -/
inductive AbbreviatesAt : Place → List (List Char) → List (List Char) → Prop where
  | nil {place : Place} : AbbreviatesAt place [] []
  | token {place : Place} {w : List Char} {ts us : List (List Char)} :
      AbbreviatesAt (place.after w) ts us → AbbreviatesAt place (w :: ts) (w :: us)
  | child {ts us : List (List Char)} : StartsTest us → AbbreviatesAt .test ts us →
      AbbreviatesAt .operand (tokens "child::".toList ++ ts) us
  | attributes {ts us : List (List Char)} : StartsTest us → AbbreviatesAt .test ts us →
      AbbreviatesAt .operand (tokens "attribute::".toList ++ ts) (['@'] :: us)
  | self {ts us : List (List Char)} : ts.head? ≠ some ['['] → AbbreviatesAt .operator ts us →
      AbbreviatesAt .operand (tokens "self::node()".toList ++ ts) (['.'] :: us)
  | parent {ts us : List (List Char)} : ts.head? ≠ some ['['] → AbbreviatesAt .operator ts us →
      AbbreviatesAt .operand (tokens "parent::node()".toList ++ ts) (['.', '.'] :: us)
  | anyDepth {place : Place} {ts us : List (List Char)} : place ≠ .test →
      AbbreviatesAt .operand ts us →
      AbbreviatesAt place (tokens "/descendant-or-self::node()/".toList ++ ts) (['/', '/'] :: us)

variable {α β : Type} {place place' : Place} {s s' t t' u u' v w : List Char} {c d : Char}
  {n n' m m' : Nat}

/-- The tokens `ws` come next, and `u` is behind them. -/
def Ahead : (ws : List (List Char)) → (s u : List Char) → Prop
  | [], s, u => s = u
  | w :: ws, s, u => ∃ t, Next w s t ∧ Ahead ws t u

theorem ahead_of_tokens {ws ts : List (List Char)} (h : tokens s = ws ++ ts) :
    ∃ u, Ahead ws s u ∧ tokens u = ts := by
  induction ws generalizing s with
  | nil => exact ⟨s, rfl, h⟩
  | cons w ws ih =>
    obtain ⟨t, ht, hrest⟩ := tokens_eq_cons_iff.mp h
    obtain ⟨u, hu, hts⟩ := ih hrest
    exact ⟨u, ⟨t, ht, hu⟩, hts⟩

theorem Ahead.tokens {ws : List (List Char)} (h : Ahead ws s u) : tokens s = ws ++ tokens u := by
  induction ws generalizing s with
  | nil => exact congrArg Expr.tokens h
  | cons w ws ih =>
    obtain ⟨t, ht, hrest⟩ := h
    rw [ht.tokens, ih hrest, List.cons_append]

theorem Ahead.length_le {ws : List (List Char)} (h : Ahead ws s u) : u.length ≤ s.length := by
  induction ws generalizing s with
  | nil => exact Nat.le_of_eq (congrArg List.length (Eq.symm h))
  | cons w ws ih =>
    obtain ⟨t, ht, hrest⟩ := h
    exact Nat.le_trans (ih hrest) (Nat.le_of_lt ht.length_lt)

theorem Ahead.length_lt {ws : List (List Char)} (h : Ahead (w :: ws) s u) :
    u.length < s.length := by
  obtain ⟨t, ht, hrest⟩ := h
  exact Nat.lt_of_le_of_lt hrest.length_le ht.length_lt

/-- The second text abbreviates the first one. -/
def Shortens (place : Place) (s s' : List Char) : Prop :=
  AbbreviatesAt place (tokens s) (tokens s')

/-- How two texts start of which the second abbreviates the first. -/
inductive Shortening : Place → (s s' : List Char) → Prop where
  | blank {place : Place} {s s' : List Char} : skipBlanks s = [] → skipBlanks s' = [] →
      Shortening place s s'
  | token {place : Place} {s s' w u u' : List Char} : Next w s u → Next w s' u' →
      Shortens (place.after w) u u' → Shortening place s s'
  | child {s s' u : List Char} : Ahead (tokens "child::".toList) s u → StartsTest (tokens s') →
      Shortens .test u s' → Shortening .operand s s'
  | attributes {s s' u u' : List Char} : Ahead (tokens "attribute::".toList) s u →
      Next ['@'] s' u' → StartsTest (tokens u') → Shortens .test u u' → Shortening .operand s s'
  | self {s s' u u' : List Char} : Ahead (tokens "self::node()".toList) s u →
      Next ['.'] s' u' → (tokens u).head? ≠ some ['['] → Shortens .operator u u' →
      Shortening .operand s s'
  | parent {s s' u u' : List Char} : Ahead (tokens "parent::node()".toList) s u →
      Next ['.', '.'] s' u' → (tokens u).head? ≠ some ['['] → Shortens .operator u u' →
      Shortening .operand s s'
  | anyDepth {place : Place} {s s' u u' : List Char} : place ≠ .test →
      Ahead (tokens "/descendant-or-self::node()/".toList) s u → Next ['/', '/'] s' u' →
      Shortens .operand u u' → Shortening place s s'

theorem Shortens.shortening (h : Shortens place s s') : Shortening place s s' := by
  unfold Shortens at h
  generalize hts : tokens s = ts at h
  generalize hus : tokens s' = us at h
  cases h with
  | nil => exact .blank (tokens_eq_nil_iff.mp hts) (tokens_eq_nil_iff.mp hus)
  | token h =>
    obtain ⟨u, hu, rfl⟩ := tokens_eq_cons_iff.mp hts
    obtain ⟨u', hu', rfl⟩ := tokens_eq_cons_iff.mp hus
    exact .token hu hu' h
  | child htest h =>
    obtain ⟨u, hu, rfl⟩ := ahead_of_tokens hts
    subst hus
    exact .child hu htest h
  | attributes htest h =>
    obtain ⟨u, hu, rfl⟩ := ahead_of_tokens hts
    obtain ⟨u', hu', rfl⟩ := tokens_eq_cons_iff.mp hus
    exact .attributes hu hu' htest h
  | self hopen h =>
    obtain ⟨u, hu, rfl⟩ := ahead_of_tokens hts
    obtain ⟨u', hu', rfl⟩ := tokens_eq_cons_iff.mp hus
    exact .self hu hu' hopen h
  | parent hopen h =>
    obtain ⟨u, hu, rfl⟩ := ahead_of_tokens hts
    obtain ⟨u', hu', rfl⟩ := tokens_eq_cons_iff.mp hus
    exact .parent hu hu' hopen h
  | anyDepth hplace h =>
    obtain ⟨u, hu, rfl⟩ := ahead_of_tokens hts
    obtain ⟨u', hu', rfl⟩ := tokens_eq_cons_iff.mp hus
    exact .anyDepth hplace hu hu' h

theorem tokens_child : tokens "child::".toList = ["child".toList, [':', ':']] := by
  decide +kernel

theorem tokens_attribute : tokens "attribute::".toList = ["attribute".toList, [':', ':']] := by
  decide +kernel

theorem tokens_self :
    tokens "self::node()".toList = ["self".toList, [':', ':'], "node".toList, ['('], [')']] := by
  decide +kernel

theorem tokens_parent :
    tokens "parent::node()".toList =
      ["parent".toList, [':', ':'], "node".toList, ['('], [')']] := by
  decide +kernel

theorem tokens_anyDepth :
    tokens "/descendant-or-self::node()/".toList =
      [['/'], "descendant-or-self".toList, [':', ':'], "node".toList, ['('], [')'], ['/']] := by
  decide +kernel

/-- Tokens with which an abbreviated step or its full form starts. -/
def OpensStep (w : List Char) : Prop :=
  (∃ test, nameTest w = some (test, [])) ∨
    w ∈ [['/'], ['@'], ['.'], ['.', '.'], ['/', '/']]

theorem opensStep_of_read {test : NodeTest} (h : nameTest w = some (test, [])) : OpensStep w :=
  .inl ⟨test, h⟩

theorem StartsTest.next (h : StartsTest (tokens s)) :
    ∃ w u test, Next w s u ∧ nameTest w = some (test, []) ∧
      (tokens u).head? ≠ some [':', ':'] ∧
      ((tokens u).head? = some ['('] → ∃ name ∈ nodeTypes.map Prod.fst, w = name.toList) := by
  generalize hts : tokens s = ts at h
  cases h with
  | name hread hcall haxis =>
    obtain ⟨u, hu, rfl⟩ := tokens_eq_cons_iff.mp hts
    exact ⟨_, u, _, hu, hread, haxis, fun hopen => absurd hopen hcall⟩
  | @kind name ts hname =>
    obtain ⟨u, hu, hrest⟩ := tokens_eq_cons_iff.mp hts
    obtain ⟨test, hread⟩ : ∃ test, nameTest name.toList = some (test, []) := by
      simp only [nodeTypes, List.map_cons, List.map_nil, List.mem_cons, List.not_mem_nil,
        or_false] at hname
      rcases hname with rfl | rfl | rfl <;> exact ⟨_, rfl⟩
    exact ⟨_, u, test, hu, hread, by simp [hrest], fun _ => ⟨_, hname, rfl⟩⟩

/-- Nothing but a step starts here: a node test or an axis that is not called, or the mark of an
abbreviated step. -/
inductive OnlyStep (s : List Char) : Prop where
  | name {w u : List Char} {test : NodeTest} : Next w s u → nameTest w = some (test, []) →
      ((tokens u).head? = some ['('] → ∃ name ∈ nodeTypes.map Prod.fst, w = name.toList) →
      OnlyStep s
  | mark {w u : List Char} : Next w s u → w ∈ [['@'], ['.'], ['.', '.']] → OnlyStep s

theorem OnlyStep.next (h : OnlyStep s) : ∃ w u, Next w s u ∧ OpensStep w := by
  cases h with
  | name hw hread => exact ⟨_, _, hw, opensStep_of_read hread⟩
  | mark hw hmem =>
    refine ⟨_, _, hw, .inr ?_⟩
    simp only [List.mem_cons, List.not_mem_nil, or_false] at hmem ⊢
    rcases hmem with h | h | h <;> simp [h]

theorem StartsTest.onlyStep (h : StartsTest (tokens s)) : OnlyStep s := by
  obtain ⟨w, u, test, hw, hread, -, hcall⟩ := h.next
  exact .name hw hread hcall

theorem onlyStep_of_axis (axis : Axis) {ws : List (List Char)}
    (h : Ahead (axis.name.toList :: [':', ':'] :: ws) s u) : OnlyStep s := by
  obtain ⟨t, hname, x, hcolons, -⟩ := h
  obtain ⟨test, hread⟩ : ∃ test, nameTest axis.name.toList = some (test, []) := by
    cases axis <;> exact ⟨_, rfl⟩
  refine .name hname hread fun hcall => ?_
  rw [hcolons.tokens] at hcall
  exact absurd hcall (by simp)

/-- Where no token is shared, a step is abbreviated or two separators and the step between them
are. -/
theorem Shortening.sides (h : Shortening place s s') :
    (skipBlanks s = [] ∧ skipBlanks s' = []) ∨
      (∃ w u u', Next w s u ∧ Next w s' u' ∧ Shortens (place.after w) u u') ∨
      (OnlyStep s ∧ OnlyStep s') ∨
      ∃ t u u', Next ['/'] s t ∧ Ahead (tokens "/descendant-or-self::node()/".toList) s u ∧
        Next ['/', '/'] s' u' ∧ place ≠ .test ∧ Shortens .operand u u' := by
  -- only `//` reads as a token on one side and as several on the other
  cases h with
  | blank h h' => exact .inl ⟨h, h'⟩
  | token h h' hrest => exact .inr (.inl ⟨_, _, _, h, h', hrest⟩)
  | child h htest =>
    rw [tokens_child] at h
    exact .inr (.inr (.inl ⟨onlyStep_of_axis .child h, htest.onlyStep⟩))
  | attributes h h' =>
    rw [tokens_attribute] at h
    exact .inr (.inr (.inl ⟨onlyStep_of_axis .attributes h, .mark h' (by simp)⟩))
  | self h h' =>
    rw [tokens_self] at h
    exact .inr (.inr (.inl ⟨onlyStep_of_axis .self h, .mark h' (by simp)⟩))
  | parent h h' =>
    rw [tokens_parent] at h
    exact .inr (.inr (.inl ⟨onlyStep_of_axis .parent h, .mark h' (by simp)⟩))
  | anyDepth hplace h h' hrest =>
    have hahead := h
    rw [tokens_anyDepth] at h
    obtain ⟨t, ht, -⟩ := h
    exact .inr (.inr (.inr ⟨t, _, _, ht, hahead, h', hplace, hrest⟩))

/-- Where no token is shared, both texts start as steps or separators do. -/
theorem Shortening.next (h : Shortening place s s') :
    (skipBlanks s = [] ∧ skipBlanks s' = []) ∨
      (∃ w u u', Next w s u ∧ Next w s' u' ∧ Shortens (place.after w) u u') ∨
      ∃ w u w' u', Next w s u ∧ Next w' s' u' ∧ OpensStep w ∧ OpensStep w' := by
  rcases h.sides with hblank | htoken | ⟨hstep, hstep'⟩ | ⟨t, u, u', hslash, -, hslashes, -⟩
  · exact .inl hblank
  · exact .inr (.inl htoken)
  · obtain ⟨w, u, hw, hopens⟩ := hstep.next
    obtain ⟨w', u', hw', hopens'⟩ := hstep'.next
    exact .inr (.inr ⟨w, u, w', u', hw, hw', hopens, hopens'⟩)
  · exact .inr (.inr ⟨_, t, _, u', hslash, hslashes, .inr (by simp), .inr (by simp)⟩)

/-! ## Two rules side by side -/

/-- The text goes on with a character of the class. -/
def GoesOn (p : Char → Bool) (s : List Char) : Prop :=
  ∃ c t, skipBlanks s = c :: t ∧ p c = true

/-- What two rules make of texts of lengths `n` and `n'`. Both are refused, or both read the same
up to texts that match at `place`, or both leave a text that goes on with a character of the class
`dead`. -/
inductive Same (dead : Char → Bool) (place : Place) (n n' : Nat) :
    Option (α × List Char) → Option (α × List Char) → Prop where
  | refused : Same dead place n n' none none
  | read {a : α} {t t' : List Char} : t.length < n → t'.length < n' → Shortens place t t' →
      Same dead place n n' (some (a, t)) (some (a, t'))
  | spoilt {a a' : α} {t t' : List Char} : t.length < n → t'.length < n' → GoesOn dead t →
      GoesOn dead t' → Same dead place n n' (some (a, t)) (some (a', t'))

variable {dead dead' : Char → Bool} {p p' : Rule α} {r r' : Option (α × List Char)}

/-- No character at all. -/
def never : Char → Bool := fun _ => false

theorem not_goesOn_never : ¬ GoesOn never s := by
  rintro ⟨c, t, -, h⟩
  cases h

theorem GoesOn.imp (h : GoesOn dead s) (hd : ∀ c, dead c = true → dead' c = true) :
    GoesOn dead' s := by
  obtain ⟨c, t, hs, hc⟩ := h
  exact ⟨c, t, hs, hd c hc⟩

theorem GoesOn.notNext (h : GoesOn dead s) (hc : dead c = false) : NotNext c s := by
  obtain ⟨d, t, hs, hd⟩ := h
  refine notNext_of_ne hs ?_
  rintro rfl
  cases hc.symm.trans hd

theorem Same.mono (h : Same dead place n n' r r') (hn : n ≤ m) (hn' : n' ≤ m')
    (hd : ∀ c, dead c = true → dead' c = true) : Same dead' place m m' r r' := by
  cases h with
  | refused => exact .refused
  | read ht ht' hrest => exact .read (Nat.lt_of_lt_of_le ht hn) (Nat.lt_of_lt_of_le ht' hn') hrest
  | spoilt ht ht' h h' =>
    exact .spoilt (Nat.lt_of_lt_of_le ht hn) (Nat.lt_of_lt_of_le ht' hn') (h.imp hd) (h'.imp hd)

theorem Same.of_never (h : Same never place n n' r r') (hn : n ≤ m) (hn' : n' ≤ m') :
    Same dead place m m' r r' :=
  h.mono hn hn' fun _ hc => absurd hc Bool.false_ne_true

theorem Same.map (h : Same dead place n n' r r') (f : α → β) :
    Same dead place n n' (r.map fun x => (f x.1, x.2)) (r'.map fun x => (f x.1, x.2)) := by
  cases h with
  | refused => exact .refused
  | read ht ht' hrest => exact .read ht ht' hrest
  | spoilt ht ht' h h' => exact .spoilt ht ht' h h'

theorem Same.bind {f f' : α → Rule β} (h : Same dead place n n' (p s).parsed (p' s').parsed)
    (hread : ∀ a t t', t.length < n → t'.length < n' → Shortens place t t' →
      Same dead' place' m m' (f a t).parsed (f' a t').parsed)
    (hspoilt : ∀ a a' t t', t.length < n → t'.length < n' → GoesOn dead t → GoesOn dead t' →
      Same dead' place' m m' (f a t).parsed (f' a' t').parsed) :
    Same dead' place' m m' ((p >>= f) s).parsed ((p' >>= f') s').parsed := by
  rw [parsed_bind, parsed_bind]
  generalize (p s).parsed = r at h ⊢
  generalize (p' s').parsed = r' at h ⊢
  cases h with
  | refused => exact .refused
  | read ht ht' hrest => exact hread _ _ _ ht ht' hrest
  | spoilt ht ht' h h' => exact hspoilt _ _ _ _ ht ht' h h'

/-- Behind a rule that is never spoilt. -/
theorem Same.bind_of_never {f f' : α → Rule β}
    (h : Same never place n n' (p s).parsed (p' s').parsed)
    (hread : ∀ a t t', t.length < n → t'.length < n' → Shortens place t t' →
      Same dead' place' m m' (f a t).parsed (f' a t').parsed) :
    Same dead' place' m m' ((p >>= f) s).parsed ((p' >>= f') s').parsed :=
  h.bind hread fun _ _ _ _ _ _ ht => absurd ht not_goesOn_never

theorem Same.bind_pure (h : Same dead place n n' (p s).parsed (p' s').parsed) (f : α → β) :
    Same dead place n n' ((p >>= fun a => pure (f a)) s).parsed
      ((p' >>= fun a => pure (f a)) s').parsed :=
  h.bind (fun _ _ _ ht ht' hrest => .read ht ht' hrest)
    fun _ _ _ _ ht ht' h h' => .spoilt ht ht' h h'

theorem Same.or {q q' : Option (α × List Char)} (h : Same dead place n n' r r')
    (hq : r = none → r' = none → Same dead place n n' q q') :
    Same dead place n n' (r.or q) (r'.or q') := by
  cases h with
  | refused => exact hq rfl rfl
  | read ht ht' hrest => exact .read ht ht' hrest
  | spoilt ht ht' h h' => exact .spoilt ht ht' h h'

theorem Same.orElse {q q' : Rule α} (h : Same dead place n n' (p s).parsed (p' s').parsed)
    (hq : (p s).parsed = none → (p' s').parsed = none →
      Same dead place n n' (q s).parsed (q' s').parsed) :
    Same dead place n n' ((p <|> q) s).parsed ((p' <|> q') s').parsed := by
  rw [parsed_orElse, parsed_orElse]
  exact h.or hq

theorem Same.of_refused (h : (p s).parsed = none) (h' : (p' s').parsed = none) :
    Same dead place n n' (p s).parsed (p' s').parsed := by
  rw [h, h']
  exact .refused

/-- The rules do the same on all matching texts of fewer than `n` and `n'` characters. -/
def Alike (dead : Char → Bool) (place place' : Place) (n n' : Nat) (p p' : Rule α) : Prop :=
  ∀ s s', s.length < n → s'.length < n' → Shortens place s s' →
    Same dead place' s.length s'.length (p s).parsed (p' s').parsed

/-- The rounds of two repetitions, side by side. -/
theorem Alike.many (h : Alike dead place place n n' p p')
    (hdead : ∀ t, GoesOn dead t → (p t).parsed = none ∧ (p' t).parsed = none) (s s' : List Char)
    (hs : s.length < n) (hs' : s'.length < n') (hrest : Shortens place s s') :
    Same dead place (s.length + 1) (s'.length + 1) (Rule.many p s).parsed
      (Rule.many p' s').parsed := by
  -- induction on what is left of the text, round by round in both texts
  suffices hrounds : ∃ as t as' t', Repeats p s as t ∧ Repeats p' s' as' t' ∧
      Same dead place (s.length + 1) (s'.length + 1) (some (as, t)) (some (as', t')) by
    obtain ⟨as, t, as', t', hread, hread', hsame⟩ := hrounds
    rwa [hread.many, hread'.many]
  induction hlength : s.length using Nat.strong_induction_on generalizing s s' with
  | _ k ih =>
    subst hlength
    have hround := h s s' hs hs' hrest
    generalize hr : (p s).parsed = r at hround
    generalize hr' : (p' s').parsed = r' at hround
    cases hround with
    | refused =>
      exact ⟨[], s, [], s', .stop hr, .stop hr', .read (by omega) (by omega) hrest⟩
    | @read a t t' ht ht' hnext =>
      obtain ⟨as, u, as', u', hread, hread', hsame⟩ :=
        ih t.length ht t t' (by omega) (by omega) hnext rfl
      refine ⟨a :: as, u, a :: as', u', .next hr ht hread, .next hr' ht' hread', ?_⟩
      cases hsame with
      | read hu hu' hend => exact .read (by omega) (by omega) hend
      | spoilt hu hu' hend hend' => exact .spoilt (by omega) (by omega) hend hend'
    -- a spoilt round is the last one in both, as neither rest is gone on with
    | @spoilt a a' t t' ht ht' hend hend' =>
      exact ⟨[a], t, [a'], t', .next hr ht (.stop (hdead t hend).1),
        .next hr' ht' (.stop (hdead t' hend').2), .spoilt (by omega) (by omega) hend hend'⟩

/-! ## Scanners and marks -/

/-- A scanner of whole tokens with which no step starts. -/
theorem scan_alike {p : Scan α} (hp : Whole p) (hempty : p [] = none)
    (hstep : ∀ w, OpensStep w → p w = none)
    (hafter : ∀ w r, p w = some r → place.after w = place') (h : Shortens place s s') :
    Same never place' s.length s'.length (p (skipBlanks s)) (p (skipBlanks s')) := by
  rcases h.shortening.next with ⟨hs, hs'⟩ | ⟨w, u, u', hw, hw', hrest⟩ |
    ⟨w, u, w', u', hw, hw', hopens, hopens'⟩
  · rw [hs, hs', hempty]
    exact .refused
  · rw [hw.scan hp, hw'.scan hp]
    cases hread : p w with
    | none => exact .refused
    | some r =>
      rw [hafter w r hread] at hrest
      exact .read hw.length_lt hw'.length_lt hrest
  · rw [hw.scan hp, hw'.scan hp, hstep w hopens, hstep w' hopens']
    exact .refused

theorem nameTest_head {r : NodeTest × List Char} (h : nameTest w = some r) :
    ∃ c cs, w = c :: cs ∧ (isNameStart c = true ∨ c = '*') := by
  cases w with
  | nil => cases h
  | cons c cs =>
    refine ⟨c, cs, rfl, ?_⟩
    by_contra hnot
    simp only [not_or, Bool.not_eq_true] at hnot
    rw [nameTest_of_not_start hnot.1 hnot.2] at h
    cases h

/-- The characters with which an abbreviated step or its full form starts. -/
theorem OpensStep.head (h : OpensStep w) :
    ∃ c cs, w = c :: cs ∧ (isNameStart c = true ∨ c ∈ ['*', '/', '@', '.']) := by
  rcases h with ⟨test, hread⟩ | hmem
  · obtain ⟨c, cs, rfl, hc | rfl⟩ := nameTest_head hread
    · exact ⟨c, cs, rfl, .inl hc⟩
    · exact ⟨_, cs, rfl, .inr (by decide)⟩
  · simp only [List.mem_cons, List.not_mem_nil, or_false] at hmem
    rcases hmem with rfl | rfl | rfl | rfl | rfl <;> exact ⟨_, _, rfl, .inr (by simp)⟩

/-- The marks between expressions. -/
def marks : List Char :=
  ['(', ')', '[', ']', ',', '|', '-']

theorem char_alike (hc : c ∈ marks) (h : Shortens place s s') :
    Same never (Place.operator.after [c]) s.length s'.length (Scan.char c (skipBlanks s))
      (Scan.char c (skipBlanks s')) := by
  -- all that is used of a mark: no longer token and no name starts with it
  obtain ⟨hsolid, hname, hmark, hafter⟩ : c ∈ solid ∧ isNameStart c = false ∧
      c ∉ ['*', '/', '@', '.'] ∧ ∀ w, place.after (c :: w) = Place.operator.after [c] := by
    simp only [marks, List.mem_cons, List.not_mem_nil, or_false] at hc
    rcases hc with rfl | rfl | rfl | rfl | rfl | rfl | rfl <;>
      exact ⟨by decide, by decide, by decide, fun w => by cases place <;> rfl⟩
  refine scan_alike (Whole.char hsolid) rfl ?_ ?_ h
  · intro w hw
    obtain ⟨d, w, rfl, hd⟩ := hw.head
    refine if_neg ?_
    rintro rfl
    rcases hd with hd | hd
    · cases hname.symm.trans hd
    · exact hmark hd
  · intro w r hread
    cases w with
    | nil => cases hread
    | cons d w =>
      by_cases hd : d = c
      · rw [hd]
        exact hafter w
      · rw [Scan.char, if_neg hd] at hread
        cases hread

theorem mark_alike (hc : c ∈ marks) (h : Shortens place s s') :
    Same never (Place.operator.after [c]) s.length s'.length (mark c s).parsed
      (mark c s').parsed :=
  char_alike hc h

/-- What no path goes on with, if it goes on at all. -/
def endsPaths : Char → Bool := fun c => c.isDigit || c = '/'

/-- Two rules for expressions that do the same on matching texts. -/
def AlikeInside (n n' : Nat) (inner inner' : Rule Expr) : Prop :=
  Alike endsPaths .operand .operator n n' inner inner'

variable {inner inner' : Rule Expr}

theorem parsed_enclosed (a b : Char) (inner : Rule Expr) (s : List Char) :
    (enclosed a b inner s).parsed =
      ((do mark a; let e ← inner; mark b; pure e : Rule Expr) s).parsed := by
  rw [enclosed, parsed_named, parsed_bind, parsed_bind, parsed_mark, parsed_mark,
    skipBlanks_skipBlanks]

/-- Brackets of one kind around an expression. -/
theorem enclosed_alike {a b : Char} (ha : a ∈ marks) (hb : b ∈ marks)
    (hafter : Place.operator.after [a] = .operand) (hinner : AlikeInside n n' inner inner')
    (h : Shortens place s s') (hs : s.length ≤ n) (hs' : s'.length ≤ n') :
    Same never (Place.operator.after [b]) s.length s'.length (enclosed a b inner s).parsed
      (enclosed a b inner' s').parsed := by
  have hdead : endsPaths b = false := by
    simp only [marks, List.mem_cons, List.not_mem_nil, or_false] at hb
    rcases hb with rfl | rfl | rfl | rfl | rfl | rfl | rfl <;> decide
  rw [parsed_enclosed, parsed_enclosed]
  refine (mark_alike ha h).bind_of_never fun _ t t' ht ht' hrest => ?_
  rw [hafter] at hrest
  refine (hinner t t' (by omega) (by omega) hrest).bind (fun e v v' hv hv' hrest => ?_)
    fun e e' v v' _ _ hend hend' => ?_
  · exact ((mark_alike hb hrest).mono (by omega) (by omega) fun _ hc => hc).bind_pure fun _ => e
  · rw [parsed_bind_of_none (hend.notNext hdead).mark,
      parsed_bind_of_none (hend'.notNext hdead).mark]
    exact .refused

end ReactiveForm.Expr
