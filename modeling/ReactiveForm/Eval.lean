import ReactiveForm.Compare
import ReactiveForm.Document.Axes
import ReactiveForm.Function.Library
import ReactiveForm.Number.Arithmetic

/-!
# Evaluation

The value of an expression at a node. A step finds nodes in the order of its axis, so that
positions in predicates count along the axis; the result of a step is put into document order.
The nodes that the last step of a path finds count as read, before its predicates are applied.
-/

set_option autoImplicit false

namespace ReactiveForm

variable (N : Type) [DecidableEq N] [Ord N]

/-- The circumstances of an evaluation. -/
structure Environment where
  document : Document N
  /-- The node for which the expression is evaluated. -/
  current : N
  position : Nat := 1
  size : Nat := 1
  /-- The values of the variables. -/
  bindings : List (String × Atom) := []
  library : Library N
  now : Moment := .epoch

/-- The node in view, and its place among the nodes that a predicate is applied to. -/
structure Focus where
  node : N
  position : Nat
  size : Nat

variable {N}

namespace Environment

variable (env : Environment N)

def focus : Focus N := ⟨env.current, env.position, env.size⟩

def call (focus : Focus N) : Call N :=
  { document := env.document, node := focus.node, position := focus.position, size := focus.size
    current := env.current, now := env.now }

/-- Results for several nodes, one after the other. -/
def collect (f : N → Reading N (List N)) : List N → Reading N (List N)
  | [] => pure []
  | x :: xs => do
    let found ← f x
    let rest ← collect f xs
    pure (found ++ rest)

/-- The nodes, counted from `position` out of `size`, that a condition holds of. -/
def select (holds : Focus N → Reading N Bool) (size : Nat) :
    (position : Nat) → List N → Reading N (List N)
  | _, [] => pure []
  | position, x :: xs => do
    let keep ← holds ⟨x, position, size⟩
    let rest ← select holds size (position + 1) xs
    pure (if keep then x :: rest else rest)

/-- Whether a predicate with this value holds at a position: a number asks for that position. -/
def admits (position : Nat) : Value N → Bool
  | .atom (.number x) => x == Float.ofNat position
  | v => v.toBool

/-- The arithmetic operators. -/
def calculate (op : Operator) (x y : Float) : Float :=
  match op with
  | .add => x + y
  | .sub => x - y
  | .mul => x * y
  | .div => x / y
  | _ => Number.remainder x y

/-- The nodes that a step finds from a node, before its predicates. Text is read through the node
that holds it, which is there even while the text is empty. -/
def candidates (axis : Axis) (test : NodeTest) (isLast : Bool) (x : N) : Reading N (List N) := do
  let found := (env.document.along x axis).filter (env.document.passes axis test)
  if isLast then
    if axis = .child && (test = .text || test = .node) then Reading.note [x]
    Reading.note found
  pure found

mutual

/-- The value of an expression. -/
def eval : Expr → Focus N → Reading N (Value N)
  | .text s, _ => pure (.string s)
  | .number x, _ => pure (.number x)
  | .variable name, _ =>
    match env.bindings.lookup name with
    | some a => pure (.atom a)
    | none => Reading.fail (.unknownVariable name)
  | .call name args, focus => do
    let f ← Reading.ofExcept (env.library.resolve name args.length)
    if f.builtin && name = "if" then evalChoice args focus
    else
      let values ← evalAll args focus
      f.apply (env.call focus) values
  | .binary op l r, focus => do
    match op with
    | .or =>
      if (← eval l focus).toBool then pure (.boolean true)
      else pure (.boolean (← eval r focus).toBool)
    | .and =>
      if (← eval l focus).toBool then pure (.boolean (← eval r focus).toBool)
      else pure (.boolean false)
    | .add | .sub | .mul | .div | .mod =>
      let x := (← eval l focus).toNumber env.document.toHostTree
      let y := (← eval r focus).toNumber env.document.toHostTree
      pure (.number (calculate op x y))
    | _ =>
      let v ← eval l focus
      let w ← eval r focus
      pure (.boolean (v.compare env.document.toHostTree op w))
  | .negate e, focus => do
    let v ← eval e focus
    pure (.number (-(v.toNumber env.document.toHostTree)))
  | .union l r, focus => do
    let xs ← Reading.ofExcept (← eval l focus).toNodes
    let ys ← Reading.ofExcept (← eval r focus).toNodes
    pure (.nodes (env.document.nodeSet (xs ++ ys)))
  | .filter base predicates, focus => do
    let xs ← Reading.ofExcept (← eval base focus).toNodes
    pure (.nodes (← evalPredicates predicates xs))
  | .path start steps, focus => do
    let xs ← evalStart start focus
    if steps.isEmpty then Reading.note xs
    pure (.nodes (← evalSteps steps xs))

/-- The values of arguments, from left to right. -/
def evalAll : List Expr → Focus N → Reading N (List (Value N))
  | [], _ => pure []
  | e :: es, focus => do
    let v ← eval e focus
    let vs ← evalAll es focus
    pure (v :: vs)

/-- A conditional; only the branch taken is evaluated. -/
def evalChoice : List Expr → Focus N → Reading N (Value N)
  | [condition, yes, no], focus => do
    if (← eval condition focus).toBool then eval yes focus else eval no focus
  | args, _ => Reading.fail (.wrongArity "if" args.length)

/-- The nodes at which a path starts. -/
def evalStart : Start Expr → Focus N → Reading N (List N)
  | .root, focus => pure [env.document.root focus.node]
  | .context, focus => pure [focus.node]
  | .nodes base, focus => do Reading.ofExcept (← eval base focus).toNodes

/-- The nodes that pass all predicates, which are applied one after the other. -/
def evalPredicates : List Expr → List N → Reading N (List N)
  | [], xs => pure xs
  | p :: ps, xs => do
    let holds := fun focus => do pure (admits focus.position (← eval p focus))
    let kept ← select holds xs.length 1 xs
    evalPredicates ps kept

/-- The nodes that a step leads to from a node, in the order of its axis. -/
def evalStep : Step Expr → (isLast : Bool) → N → Reading N (List N)
  | ⟨axis, test, predicates⟩, isLast, x => do
    let found ← env.candidates axis test isLast x
    evalPredicates predicates found

/-- The nodes that the steps lead to, one after the other. -/
def evalSteps : List (Step Expr) → List N → Reading N (List N)
  | [], xs => pure xs
  | s :: rest, xs => do
    let found ← collect (evalStep s rest.isEmpty) xs
    evalSteps rest (env.document.nodeSet found)

end

/-- The value of an expression at the current node. -/
def evaluate (e : Expr) : Except EvalError (Value N) :=
  ((env.eval e env.focus).run none).1

/-- The value of an expression at the current node, and the nodes read on the way to it or to its
failure. -/
def evaluateTracked (e : Expr) : Except EvalError (Value N) × Reads N :=
  let (result, log) := (env.eval e env.focus).run (some .empty)
  (result, log.getD .empty)

end Environment

end ReactiveForm
