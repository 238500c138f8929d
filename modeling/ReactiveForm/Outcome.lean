import ReactiveForm.Eval
import ReactiveForm.Rules
import ReactiveForm.Tree.View

/-!
# Outcomes

What an output comes to on a live tree, and which nodes were read on the way. An expression is
evaluated at the node that it is bound to; the instance at or above that node gives position and
size.
-/

set_option autoImplicit false

namespace ReactiveForm

/-- The result of an output. -/
inductive OutputValue where
  | flag (value : Bool)
  | text (value : String)
  | items (list : List Item)
  deriving Repr, DecidableEq

structure Outcome where
  result : Except EvalError OutputValue
  /-- The live nodes read, in the order of their first reads. -/
  reads : List NodeId

/-- What the outputs of a form are computed with. -/
structure Logic where
  rules : RuleBook
  library : Library ViewNode
  /-- The values of the variables. -/
  bindings : List (String × Atom) := []
  now : Moment := .epoch

namespace Logic

variable (l : Logic) (t : Tree)

def environment (x : ViewNode) (place : Nat × Nat) : Environment ViewNode where
  document := t.document
  current := x
  position := place.1
  size := place.2
  bindings := l.bindings
  library := l.library
  now := l.now

/-- The value of an expression at a node of the document. -/
def value (e : Expr) (x : ViewNode) (place : Nat × Nat) : Reading ViewNode (Value ViewNode) :=
  let env := l.environment t x place
  env.eval e env.focus

/-- The items at nodes, counted from `position` out of `size`. -/
def itemsAt (rule : ItemRule) (size : Nat) :
    (position : Nat) → List ViewNode → Reading ViewNode (List Item)
  | _, [] => pure []
  | position, x :: xs => do
    let value ← l.value t rule.value x (position, size)
    let label ← l.value t rule.label x (position, size)
    let rest ← itemsAt rule size (position + 1) xs
    let tree := t.document.toHostTree
    pure ({ value := value.toText tree, label := label.toText tree } :: rest)

/-- The items that a rule computes for a selection, one for each value. -/
def items (rule : ItemRule) (id : NodeId) (place : Nat × Nat) :
    Reading ViewNode (List Item) := do
  let found ← Reading.ofExcept (← l.value t rule.nodeset (.element id) place).toNodes
  let all ← l.itemsAt t rule found.length 1 found
  pure (all.eraseDupsBy fun i j => i.value == j.value)

/-- The result of an output of a kind under the rules of a node. -/
def result (rules : Rules) (o : Output) (place : Nat × Nat) : Reading ViewNode OutputValue :=
  match o.kind with
  | .itemset =>
    match rules.itemset with
    | none => Reading.fail (.failed "no itemset declared")
    | some rule => do pure (.items (← l.items t rule o.node place))
  | .bind kind =>
    match rules.expressions.lookup kind with
    | none => Reading.fail (.failed s!"no {kind.name} expression declared")
    | some e => do
      let v ← l.value t e (.element o.node) place
      match kind with
      | .calculate => pure (.text (v.toText t.document.toHostTree))
      | _ => pure (.flag v.toBool)

/-- The result of an output and the nodes read for it, or for its failure. -/
def outcome (o : Output) : Outcome :=
  let run : Reading ViewNode OutputValue :=
    match l.rules.rulesAt t o.node with
    | none => Reading.fail (.failed "node has no bound expressions")
    | some rules => l.result t rules o ((t.place o.node).getD (1, 1))
  let (result, log) := run.run (some .empty)
  { result, reads := ((log.getD .empty).nodes.map t.target).eraseDups }

end Logic

end ReactiveForm
