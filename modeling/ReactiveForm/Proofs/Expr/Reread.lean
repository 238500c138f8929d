import ReactiveForm.Expr.Canonical

/-!
# What canonical text is read as

Canonical text drifts away from the grammar in two places. A literal that is too large is written
as a name, and a union is written without parentheses around its operands although a sign binds
weaker than a union: a sign in front of the left operand moves to the whole union, and behind the
mark of a union no sign can stand. `Expr.reread` follows both through an expression;
`Expr.reread_eq_self_iff` says which expressions are left alone.
-/

set_option autoImplicit false

namespace ReactiveForm.Expr

def isNegation : Expr → Bool
  | .negate _ => true
  | _ => false

/-- The sign of `e` in front of what is read behind it. -/
def signed (e read : Expr) : Expr :=
  if e.isNegation then .negate read else read

/-- What is read in place of a number. -/
def rereadNumber (x : Float) : Expr :=
  if x.isInf then .path .context [⟨.child, .name "Infinity", []⟩] else .number x

mutual

/-- What is read in place of an expression without its sign, unless its text is no expression. -/
def rereadOperand : Expr → Option Expr
  | .text s => some (.text s)
  | .number x => some (rereadNumber x)
  | .variable name => some (.variable name)
  | .call f args => (rereadAll args).map (.call f)
  | .binary op l r => do
    let left ← rereadOperand l
    let right ← rereadOperand r
    some (.binary op (signed l left) (signed r right))
  | .negate e => (rereadOperand e).map (signed e)
  | .union l r =>
    if r.isNegation then none
    else do
      let left ← rereadOperand l
      let right ← rereadOperand r
      some (signed l (.union left right))
  | .filter base predicates => do
    let b ← rereadOperand base
    let ps ← rereadAll predicates
    some (.filter (signed base b) ps)
  | .path start steps => do
    let from' ← rereadStart start
    let ss ← rereadSteps steps
    some (.path from' ss)

def rereadAll : List Expr → Option (List Expr)
  | [] => some []
  | e :: es => do
    let first ← rereadOperand e
    let rest ← rereadAll es
    some (signed e first :: rest)

def rereadStep : Step Expr → Option (Step Expr)
  | ⟨axis, test, predicates⟩ => (rereadAll predicates).map (⟨axis, test, ·⟩)

def rereadSteps : List (Step Expr) → Option (List (Step Expr))
  | [] => some []
  | s :: ss => do
    let first ← rereadStep s
    let rest ← rereadSteps ss
    some (first :: rest)

def rereadStart : Start Expr → Option (Start Expr)
  | .root => some .root
  | .context => some .context
  | .nodes base => (rereadOperand base).map fun b => .nodes (signed base b)

end

/-- What is read in place of an expression. -/
def reread (e : Expr) : Option Expr :=
  (rereadOperand e).map (signed e)

theorem rereadAll_cons (e : Expr) (es : List Expr) :
    rereadAll (e :: es) = (reread e).bind fun a => (rereadAll es).map (a :: ·) := by
  rw [rereadAll, reread]
  cases rereadOperand e <;> cases rereadAll es <;> rfl

theorem rereadSteps_cons (st : Step Expr) (ss : List (Step Expr)) :
    rereadSteps (st :: ss) = (rereadStep st).bind fun a => (rereadSteps ss).map (a :: ·) := by
  rw [rereadSteps]
  cases rereadStep st <;> cases rereadSteps ss <;> rfl

/-! ## Parts -/

mutual

/-- The expression and all expressions inside it. -/
def parts : Expr → List Expr
  | .text s => [.text s]
  | .number x => [.number x]
  | .variable name => [.variable name]
  | .call f args => .call f args :: partsOfAll args
  | .binary op l r => .binary op l r :: (parts l ++ parts r)
  | .negate e => .negate e :: parts e
  | .union l r => .union l r :: (parts l ++ parts r)
  | .filter base predicates => .filter base predicates :: (parts base ++ partsOfAll predicates)
  | .path start steps => .path start steps :: (partsOfStart start ++ partsOfSteps steps)

def partsOfAll : List Expr → List Expr
  | [] => []
  | e :: es => parts e ++ partsOfAll es

def partsOfStep : Step Expr → List Expr
  | ⟨_, _, predicates⟩ => partsOfAll predicates

def partsOfSteps : List (Step Expr) → List Expr
  | [] => []
  | s :: ss => partsOfStep s ++ partsOfSteps ss

def partsOfStart : Start Expr → List Expr
  | .root => []
  | .context => []
  | .nodes base => parts base

end

/-- No infinite literal, and no union with a negation as an operand. -/
def IsPlain : Expr → Prop
  | .number x => x.isInf = false
  | .union l r => l.isNegation = false ∧ r.isNegation = false
  | _ => True

/-- All parts of the expression are plain. -/
def Stable (e : Expr) : Prop :=
  ∀ p ∈ e.parts, p.IsPlain

theorem signed_injective (e : Expr) {a b : Expr} (h : signed e a = signed e b) : a = b := by
  unfold signed at h
  split at h
  · cases h; rfl
  · exact h

/-- What is read behind the sign of an expression that is read as itself. -/
def unsigned : Expr → Expr
  | .negate e => e
  | e => e

theorem signed_unsigned (e : Expr) : signed e e.unsigned = e := by
  cases e <;> rfl

theorem signed_eq_self_iff {e a : Expr} : signed e a = e ↔ a = e.unsigned := by
  conv => lhs; rhs; rw [← signed_unsigned e]
  exact ⟨signed_injective e, fun h => by rw [h]⟩

theorem unsigned_of_not_negation {e : Expr} (h : e.isNegation = false) : e.unsigned = e := by
  cases e <;> simp_all [unsigned, isNegation]

theorem signed_eq_union_iff (e : Expr) {l r l' r' : Expr} :
    signed e (.union l' r') = .union l r ↔ e.isNegation = false ∧ l' = l ∧ r' = r := by
  unfold signed
  split <;> simp_all

theorem forall_isPlain_cons {e : Expr} (h : e.IsPlain) {es : List Expr} :
    (∀ p ∈ e :: es, p.IsPlain) ↔ ∀ p ∈ es, p.IsPlain := by
  simp [h]

mutual

theorem rereadOperand_eq_self_iff (e : Expr) :
    rereadOperand e = some e.unsigned ↔ ∀ p ∈ e.parts, p.IsPlain := by
  match e with
  | .text s => simp [rereadOperand, unsigned, parts, IsPlain]
  | .number x =>
    cases h : x.isInf <;> simp [rereadOperand, rereadNumber, unsigned, parts, IsPlain, h]
  | .variable name => simp [rereadOperand, unsigned, parts, IsPlain]
  | .call f args =>
    change rereadOperand _ = some (.call f args) ↔ _
    rw [parts, forall_isPlain_cons (e := .call f args) trivial, ← rereadAll_eq_self_iff args]
    simp [rereadOperand]
  | .binary op l r =>
    change rereadOperand _ = some (.binary op l r) ↔ _
    rw [parts, forall_isPlain_cons (e := .binary op l r) trivial, List.forall_mem_append,
      ← rereadOperand_eq_self_iff l, ← rereadOperand_eq_self_iff r]
    simp only [rereadOperand, Option.bind_eq_bind, Option.bind_eq_some_iff, Option.some.injEq,
      Expr.binary.injEq, signed_eq_self_iff]
    grind
  | .negate e =>
    change rereadOperand _ = some e ↔ _
    rw [parts, forall_isPlain_cons (e := .negate e) trivial, ← rereadOperand_eq_self_iff e]
    simp only [rereadOperand, Option.map_eq_some_iff, signed_eq_self_iff]
    grind
  | .union l r =>
    change rereadOperand _ = some (.union l r) ↔ _
    rw [parts, List.forall_mem_cons, List.forall_mem_append, ← rereadOperand_eq_self_iff l,
      ← rereadOperand_eq_self_iff r, rereadOperand]
    cases hr : r.isNegation with
    | true => simp [IsPlain, hr]
    | false =>
      simp only [Option.bind_eq_bind, Option.bind_eq_some_iff, Option.some.injEq, signed_eq_union_iff,
        IsPlain, hr, unsigned_of_not_negation hr, Bool.false_eq_true, if_false, and_true]
      cases hl : l.isNegation with
      | true => simp
      | false =>
        rw [unsigned_of_not_negation hl]
        grind
  | .filter base predicates =>
    change rereadOperand _ = some (.filter base predicates) ↔ _
    rw [parts, forall_isPlain_cons (e := .filter base predicates) trivial, List.forall_mem_append,
      ← rereadOperand_eq_self_iff base, ← rereadAll_eq_self_iff predicates]
    simp only [rereadOperand, Option.bind_eq_bind, Option.bind_eq_some_iff, Option.some.injEq,
      Expr.filter.injEq, signed_eq_self_iff]
    grind
  | .path start steps =>
    change rereadOperand _ = some (.path start steps) ↔ _
    rw [parts, forall_isPlain_cons (e := .path start steps) trivial, List.forall_mem_append,
      ← rereadStart_eq_self_iff start, ← rereadSteps_eq_self_iff steps]
    simp only [rereadOperand, Option.bind_eq_bind, Option.bind_eq_some_iff, Option.some.injEq,
      Expr.path.injEq]
    grind

theorem rereadAll_eq_self_iff (es : List Expr) :
    rereadAll es = some es ↔ ∀ p ∈ partsOfAll es, p.IsPlain := by
  match es with
  | [] => simp [rereadAll, partsOfAll]
  | e :: es =>
    simp only [rereadAll, partsOfAll, List.forall_mem_append, ← rereadOperand_eq_self_iff e,
      ← rereadAll_eq_self_iff es, Option.bind_eq_bind, Option.bind_eq_some_iff, Option.some.injEq,
      List.cons.injEq, signed_eq_self_iff]
    grind

theorem rereadStep_eq_self_iff (s : Step Expr) :
    rereadStep s = some s ↔ ∀ p ∈ partsOfStep s, p.IsPlain := by
  match s with
  | ⟨axis, test, predicates⟩ =>
    simp [rereadStep, partsOfStep, ← rereadAll_eq_self_iff predicates]

theorem rereadSteps_eq_self_iff (ss : List (Step Expr)) :
    rereadSteps ss = some ss ↔ ∀ p ∈ partsOfSteps ss, p.IsPlain := by
  match ss with
  | [] => simp [rereadSteps, partsOfSteps]
  | s :: ss =>
    simp only [rereadSteps, partsOfSteps, List.forall_mem_append, ← rereadStep_eq_self_iff s,
      ← rereadSteps_eq_self_iff ss, Option.bind_eq_bind, Option.bind_eq_some_iff,
      Option.some.injEq, List.cons.injEq]
    grind

theorem rereadStart_eq_self_iff (start : Start Expr) :
    rereadStart start = some start ↔ ∀ p ∈ partsOfStart start, p.IsPlain := by
  match start with
  | .root => simp [rereadStart, partsOfStart]
  | .context => simp [rereadStart, partsOfStart]
  | .nodes base =>
    simp only [rereadStart, partsOfStart, ← rereadOperand_eq_self_iff base,
      Option.map_eq_some_iff, Start.nodes.injEq, signed_eq_self_iff]
    grind

end

/-- An expression is read as itself exactly when all its parts are plain. -/
theorem reread_eq_self_iff (e : Expr) : reread e = some e ↔ e.Stable := by
  rw [reread, Stable, ← rereadOperand_eq_self_iff, Option.map_eq_some_iff]
  simp only [signed_eq_self_iff]
  grind

end ReactiveForm.Expr
