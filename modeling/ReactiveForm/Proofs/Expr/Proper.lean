import ReactiveForm.Expr.Grammar
import ReactiveForm.Proofs.Expr.Name
import ReactiveForm.Proofs.Expr.Rule

/-!
# Expressions that come from a text

Not every syntax tree has a text. `Expr.Proper` collects what reading guarantees: literals and
names that can be written down, no path without a step but the one to the root, and no filter
without a predicate.
-/

set_option autoImplicit false

namespace ReactiveForm

def NodeTest.Proper : NodeTest → Prop
  | any | node | text | comment => True
  | qualifier p => Expr.IsSimpleName p.toList
  | name n => Expr.IsQualifiedName n.toList

namespace Expr

mutual

def Proper : Expr → Prop
  | .text s => '\'' ∈ s.toList → '"' ∉ s.toList
  | .number x => ∃ whole fraction, x = Number.ofDigits whole fraction
  | .variable name => IsQualifiedName name.toList
  | .call f args => IsQualifiedName f.toList ∧ nodeTypes.lookup f = none ∧ AllProper args
  | .binary _ l r => Proper l ∧ Proper r
  | .negate e => Proper e
  | .union l r => Proper l ∧ Proper r
  | .filter base predicates => Proper base ∧ predicates ≠ [] ∧ AllProper predicates
  | .path start steps => ProperStart start steps.isEmpty ∧ ProperSteps steps

def AllProper : List Expr → Prop
  | [] => True
  | e :: es => Proper e ∧ AllProper es

def ProperStep : Step Expr → Prop
  | ⟨_, test, predicates⟩ => test.Proper ∧ AllProper predicates

def ProperSteps : List (Step Expr) → Prop
  | [] => True
  | s :: ss => ProperStep s ∧ ProperSteps ss

/-- Only the path to the root may be without steps. -/
def ProperStart : Start Expr → (noSteps : Bool) → Prop
  | .root, _ => True
  | .context, noSteps => noSteps = false
  | .nodes base, noSteps => noSteps = false ∧ Proper base

end

theorem allProper_iff {es : List Expr} : AllProper es ↔ ∀ e ∈ es, e.Proper := by
  induction es with
  | nil => simp [AllProper]
  | cons e es ih => simp [AllProper, ih]

theorem properSteps_iff {ss : List (Step Expr)} : ProperSteps ss ↔ ∀ s ∈ ss, ProperStep s := by
  induction ss with
  | nil => simp [ProperSteps]
  | cons s ss ih => simp [ProperSteps, ih]

theorem properStep_anyDepth : ProperStep Step.anyDepth :=
  ⟨trivial, trivial⟩

/-! ## Tokens -/

open Rule

theorem proper_of_quoted {mark : Char} {s t : List Char} {a : String}
    (h : quoted mark s = some (a, t)) : mark ∉ a.toList := by
  unfold quoted at h
  split at h
  · cases h
  · split at h
    · split at h
      · obtain ⟨rfl, -⟩ : _ = a ∧ _ = t := by simpa using h
        intro hmem
        have hne := List.all_eq_true.1 List.all_takeWhile mark (by simpa using hmem)
        simp at hne
      · cases h
    · cases h

theorem stringLiteral_proper : stringLiteral.Ensures Proper := by
  refine Ensures.bind (P := fun s => '\'' ∈ s.toList → '"' ∉ s.toList)
    (ensures_token ?_)
    fun s hs => ensures_pure (by simpa only [Proper] using hs)
  intro s a t h hsingle
  simp only [Scan.orElse, Option.or_eq_some_iff] at h
  rcases h with h | ⟨-, h⟩
  · exact proper_of_quoted h
  · exact absurd hsingle (proper_of_quoted h)

theorem numberLiteral_proper : numberLiteral.Ensures Proper := by
  refine Ensures.bind (P := fun x => ∃ whole fraction, x = Number.ofDigits whole fraction)
    (ensures_token ?_)
    fun x hx => ensures_pure (by simpa only [Proper] using hx)
  intro s x t h
  unfold numeral at h
  dsimp only at h
  split at h
  · split at h
    · cases h
    · simp only [Option.some.injEq, Prod.mk.injEq] at h
      exact ⟨_, _, h.1.symm⟩
  · split at h
    · cases h
    · simp only [Option.some.injEq, Prod.mk.injEq] at h
      exact ⟨_, _, h.1.symm⟩

theorem variableReference_proper : variableReference.Ensures Proper := by
  refine Ensures.named (ensures_bind_of_all fun _ => ?_)
  refine Ensures.bind (P := fun name => IsQualifiedName name.toList) ?_
    fun name h => ensures_pure (by simpa only [Proper] using h)
  intro s name t h
  dsimp only at h
  split at h
  · next r hr => exact (qualifiedName_sound (hr.trans h)).1
  · cases h

/-! ## Steps -/

theorem nodeTest_proper : nodeTest.Ensures NodeTest.Proper := by
  refine Ensures.orElse ?_ (ensures_token ?_)
  · refine Ensures.bind (P := NodeTest.Proper) (ensures_token ?_) fun test h =>
      ensures_bind_of_all fun _ => ensures_bind_of_all fun _ => ensures_pure h
    intro s test t h
    obtain ⟨test', hlookup, heq⟩ := Option.map_eq_some_iff.1 h
    obtain ⟨rfl, -⟩ : test' = test ∧ _ = t := by simpa using heq
    obtain ⟨before, after, heq, -⟩ := List.lookup_eq_some_iff.1 hlookup
    have hmem : (String.ofList (s.takeWhile isNameChar), test') ∈ nodeTypes := by rw [heq]; simp
    simp only [nodeTypes, List.mem_cons, Prod.mk.injEq, List.not_mem_nil, or_false] at hmem
    rcases hmem with ⟨-, rfl⟩ | ⟨-, rfl⟩ | ⟨-, rfl⟩ <;> trivial
  · intro s test t h
    unfold nameTest at h
    split at h
    · cases h; trivial
    · split at h
      · next name rest hname =>
        cases h
        simpa [NodeTest.Proper] using (simpleName_sound hname).1
      · obtain ⟨⟨name, rest⟩, h, heq⟩ := Option.map_eq_some_iff.1 h
        cases heq
        exact (qualifiedName_sound h).1

theorem shortStep_proper : shortStep.Ensures ProperStep :=
  Ensures.orElse (ensures_bind_of_all fun _ => ensures_pure ⟨trivial, trivial⟩)
    (ensures_bind_of_all fun _ => ensures_pure ⟨trivial, trivial⟩)

variable {inner : Rule Expr}

theorem predicate_proper (h : inner.Ensures Proper) : (predicate inner).Ensures Proper :=
  Ensures.named <| ensures_bind_of_all fun _ => Ensures.bind h fun _ he =>
    ensures_bind_of_all fun _ => ensures_pure he

theorem step_proper (h : inner.Ensures Proper) : (step inner).Ensures ProperStep := by
  refine Ensures.orElse shortStep_proper (ensures_bind_of_all fun axis => ?_)
  refine Ensures.bind nodeTest_proper fun test htest => ?_
  refine Ensures.bind (predicate_proper h).many fun predicates hp => ?_
  exact ensures_pure ⟨htest, allProper_iff.2 hp⟩

theorem separator_proper : separator.Ensures ProperSteps :=
  Ensures.orElse (ensures_bind_of_all fun _ => ensures_pure ⟨properStep_anyDepth, trivial⟩)
    (ensures_bind_of_all fun _ => ensures_pure trivial)

/-- The steps of a path that has at least one. -/
def ProperPath (steps : List (Step Expr)) : Prop :=
  steps.isEmpty = false ∧ ProperSteps steps

theorem relativePath_proper (h : inner.Ensures Proper) :
    (relativePath inner).Ensures ProperPath := by
  refine Ensures.bind (step_proper h) fun first hfirst => ?_
  refine Ensures.bind (P := fun rest => ∀ steps ∈ rest, ProperSteps steps)
    (Ensures.many ?_) fun rest hrest => ensures_pure ⟨rfl, hfirst, ?_⟩
  · refine Ensures.bind separator_proper fun between hbetween => ?_
    refine Ensures.bind (step_proper h) fun s hs => ensures_pure (properSteps_iff.2 ?_)
    intro s' hs'
    rcases List.mem_append.1 hs' with hs' | hs'
    · exact properSteps_iff.1 hbetween s' hs'
    · obtain rfl : s' = s := by simpa using hs'
      exact hs
  · refine properSteps_iff.2 fun s hs => ?_
    obtain ⟨steps, hsteps, hs⟩ := List.mem_flatten.1 hs
    exact properSteps_iff.1 (hrest steps hsteps) s hs

theorem absolutePath_proper (h : inner.Ensures Proper) : (absolutePath inner).Ensures Proper := by
  refine Ensures.orElse (ensures_bind_of_all fun _ => ?_) (ensures_bind_of_all fun _ => ?_)
  · exact Ensures.bind (relativePath_proper h) fun steps hsteps =>
      ensures_pure ⟨trivial, properStep_anyDepth, hsteps.2⟩
  · refine Ensures.bind (relativePath_proper h).optional fun steps hsteps =>
      ensures_pure ⟨trivial, ?_⟩
    cases steps with
    | none => trivial
    | some steps => exact (hsteps steps rfl).2

/-! ## Operands -/

theorem parenthesized_proper (h : inner.Ensures Proper) : (parenthesized inner).Ensures Proper :=
  Ensures.named <| ensures_bind_of_all fun _ => Ensures.bind h fun _ he =>
    ensures_bind_of_all fun _ => ensures_pure he

theorem arguments_proper (h : inner.Ensures Proper) : (arguments inner).Ensures AllProper := by
  refine Ensures.bind h.optional fun first hfirst => ?_
  cases first with
  | none => exact ensures_pure trivial
  | some first =>
    exact Ensures.bind (ensures_bind_of_all fun _ => h).many fun rest hrest =>
      ensures_pure ⟨hfirst first rfl, allProper_iff.2 hrest⟩

/-- A name in front of an opening parenthesis is no node type where none opens. -/
theorem lookup_of_not_opensNodeType {s t u : List Char} {name : String}
    (hopens : opensNodeType s = false) (hname : qualifiedName s = some (name, t))
    (hmark : Scan.char '(' (skipBlanks t) = some ((), u)) : nodeTypes.lookup name = none := by
  have hopen : (skipBlanks t).head? = some '(' := by
    revert hmark
    cases skipBlanks t with
    | nil => simp [Scan.char]
    | cons c cs => simp +contextual [Scan.char]
  rcases (qualifiedName_sound hname).2 with hcolon | ⟨htake, hdrop⟩
  · simp only [nodeTypes, List.lookup_eq_none_iff, List.mem_cons, List.not_mem_nil, or_false,
      bne_iff_ne]
    rintro p (rfl | rfl | rfl) heq <;>
    · rw [heq] at hcolon
      revert hcolon
      decide
  · cases hlookup : nodeTypes.lookup name with
    | none => rfl
    | some test =>
      simp [opensNodeType, nodeType, htake, hdrop, hlookup, hopen] at hopens

/-- A call without the guard against node types. -/
def namedCall (inner : Rule Expr) : Rule Expr := do
  let name ← token qualifiedName
  mark '('
  let args ← arguments inner
  mark ')'
  pure (.call name args)

theorem parsed_functionCall (inner : Rule Expr) (s : List Char) :
    (functionCall inner s).parsed =
      if opensNodeType (skipBlanks s) then none else (namedCall inner (skipBlanks s)).parsed := by
  refine (parsed_named _ s).trans ?_
  split <;> rfl

theorem functionCall_proper (h : inner.Ensures Proper) : (functionCall inner).Ensures Proper := by
  intro s e t he
  rw [parsed_functionCall] at he
  split at he
  · cases he
  · next hopens =>
    simp only [namedCall, parsed_bind, parsed_token, parsed_mark, parsed_pure, Option.bind_eq_some_iff,
      skipBlanks_skipBlanks] at he
    obtain ⟨⟨name, u⟩, hname, ⟨_, v⟩, hmark, ⟨args, w⟩, hargs, _, -, he⟩ := he
    obtain ⟨rfl, -⟩ : Expr.call name args = e ∧ _ = t := by simpa using he
    have hlookup := lookup_of_not_opensNodeType (by simpa using hopens) hname hmark
    rw [Proper]
    exact ⟨(qualifiedName_sound hname).1, hlookup, arguments_proper h _ _ _ hargs⟩

theorem primary_proper (h : inner.Ensures Proper) : (primary inner).Ensures Proper :=
  variableReference_proper.orElse <| (parenthesized_proper h).orElse <|
    stringLiteral_proper.orElse <| numberLiteral_proper.orElse (functionCall_proper h)

theorem filterPath_proper (h : inner.Ensures Proper) : (filterPath inner).Ensures Proper := by
  refine Ensures.bind (primary_proper h) fun base hbase => ?_
  refine Ensures.bind (predicate_proper h).many fun predicates hp => ?_
  have hfiltered : (if predicates.isEmpty then base else .filter base predicates).Proper := by
    cases predicates with
    | nil => exact hbase
    | cons e es => exact ⟨hbase, by simp, allProper_iff.2 hp⟩
  refine Ensures.bind (P := fun steps => ∀ ss ∈ steps, ProperPath ss)
    (Ensures.optional ?_) fun steps hsteps => ?_
  · refine Ensures.bind separator_proper fun between hbetween => ?_
    refine Ensures.bind (relativePath_proper h) fun steps hsteps => ensures_pure ?_
    refine ⟨?_, properSteps_iff.2 fun s hs => ?_⟩
    · have := hsteps.1
      cases between <;> simp_all
    rcases List.mem_append.1 hs with hs | hs
    · exact properSteps_iff.1 hbetween s hs
    · exact properSteps_iff.1 hsteps.2 s hs
  · cases steps with
    | none => exact ensures_pure hfiltered
    | some steps => exact ensures_pure ⟨⟨(hsteps steps rfl).1, hfiltered⟩, (hsteps steps rfl).2⟩

theorem pathExpr_proper (h : inner.Ensures Proper) : (pathExpr inner).Ensures Proper :=
  (absolutePath_proper h).orElse <| (filterPath_proper h).orElse <|
    Ensures.bind (relativePath_proper h) fun steps hsteps =>
      ensures_pure (a := Expr.path .context steps) hsteps

/-! ## Operators -/

theorem foldl_proper {α : Type} {join : Expr → α → Expr} {P : α → Prop}
    (hjoin : ∀ e a, Proper e → P a → Proper (join e a)) :
    ∀ (as : List α) (e : Expr), Proper e → (∀ a ∈ as, P a) → Proper (as.foldl join e) := by
  intro as
  induction as with
  | nil => intro e he _; exact he
  | cons a as ih =>
    intro e he has
    exact ih _ (hjoin e a he (has a (by simp))) fun b hb => has b (by simp [hb])

theorem unionExpr_proper (h : inner.Ensures Proper) : (unionExpr inner).Ensures Proper := by
  refine Ensures.bind (pathExpr_proper h) fun first hfirst => ?_
  refine Ensures.bind (ensures_bind_of_all fun _ => pathExpr_proper h).many fun rest hrest => ?_
  refine ensures_pure (foldl_proper (fun l r hl hr => ?_) rest first hfirst hrest)
  exact (⟨hl, hr⟩ : (Expr.union l r).Proper)

theorem signedExpr_proper (h : inner.Ensures Proper) : (signedExpr inner).Ensures Proper := by
  refine ensures_bind_of_all fun signs => ?_
  refine Ensures.bind (unionExpr_proper h) fun e he => ensures_pure ?_
  refine foldl_proper (P := fun _ => True) (fun e _ he _ => ?_) signs e he fun _ _ => trivial
  exact (he : (Expr.negate e).Proper)

theorem chain_proper {operator : Rule Operator} {operand : Rule Expr}
    (h : operand.Ensures Proper) : (chain operator operand).Ensures Proper := by
  refine Ensures.bind h fun first hfirst => ?_
  refine Ensures.bind (P := fun rest => ∀ a ∈ rest, Proper a.2) (Ensures.many ?_) fun rest hrest =>
    ensures_pure (foldl_proper (fun l a hl ha => ?_) rest first hfirst hrest)
  · exact ensures_bind_of_all fun _ => Ensures.bind h fun _ hright => ensures_pure hright
  · exact (⟨hl, ha⟩ : (Expr.binary a.1 l a.2).Proper)

theorem expr_proper (depth : Nat) : (expr depth).Ensures Proper := by
  induction depth with
  | zero => exact ensures_refuse
  | succ depth ih =>
    exact chain_proper <| chain_proper <| chain_proper <| chain_proper <| chain_proper <|
      chain_proper <| signedExpr_proper ih

/-- What is read is proper. -/
theorem proper_of_read {text : String} {e : Expr} (h : read text = .ok e) : e.Proper := by
  unfold read at h
  split at h
  · next e' t stuck hwhole =>
    cases h
    refine Ensures.bind (Q := Proper) (expr_proper _) (fun e he => ?_) text.toList e t
      (congrArg Attempt.parsed hwhole)
    exact ensures_bind_of_all fun _ => ensures_pure he
  · cases h

end Expr

end ReactiveForm
