import ReactiveForm.Expr.Axis

/-!
# Expressions

The syntax trees of the expression language in which a form states its rules: XPath 1.0 with
functions and variables supplied by the host.
-/

set_option autoImplicit false

namespace ReactiveForm

/-- The binary operators, from the weakest binding to the strongest. -/
inductive Operator where
  | or
  | and
  | eq
  | ne
  | lt
  | le
  | gt
  | ge
  | add
  | sub
  | mul
  | div
  | mod
  deriving Repr, DecidableEq

def Operator.symbol : Operator → String
  | or => "or"
  | and => "and"
  | eq => "="
  | ne => "!="
  | lt => "<"
  | le => "<="
  | gt => ">"
  | ge => ">="
  | add => "+"
  | sub => "-"
  | mul => "*"
  | div => "div"
  | mod => "mod"

/-- What a location step asks of the nodes on its axis. -/
inductive NodeTest where
  /-- Any node of the principal kind. -/
  | any
  /-- A node whose name has this prefix. -/
  | qualifier (name : String)
  /-- A node of this name. -/
  | name (name : String)
  | node
  | text
  | comment
  deriving Repr, DecidableEq

/-- A location step with predicates of type `ε`. -/
structure Step (ε : Type) where
  axis : Axis
  test : NodeTest
  predicates : List ε := []
  deriving Repr, BEq

/-- Where a location path starts: at the root of the tree, at the context node, or at the nodes
that an expression selects. -/
inductive Start (ε : Type) where
  | root
  | context
  | nodes (base : ε)
  deriving Repr, BEq

inductive Expr where
  | text (value : String)
  | number (value : Float)
  | variable (name : String)
  | call (function : String) (arguments : List Expr)
  | binary (op : Operator) (left right : Expr)
  | negate (operand : Expr)
  | union (left right : Expr)
  /-- The nodes of `base` that pass the predicates. -/
  | filter (base : Expr) (predicates : List Expr)
  | path (start : Start Expr) (steps : List (Step Expr))
  deriving Repr, BEq

/-- The step that stands between two steps joined by a double slash. -/
def Step.anyDepth {ε : Type} : Step ε := ⟨.descendantOrSelf, .node, []⟩

end ReactiveForm
