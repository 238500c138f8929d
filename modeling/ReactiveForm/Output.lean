import ReactiveForm.Definition.Basic
import ReactiveForm.Tree.Arena

/-!
# Outputs

What a form computes for its nodes: the results of the expressions bound to a node, and the items
of a selection. The outputs of a form have a fixed order, in which they are computed unless their
dependencies ask for another one.
-/

set_option autoImplicit false

namespace ReactiveForm

inductive OutputKind where
  | bind (kind : BindKind)
  | itemset
  deriving Repr, DecidableEq

namespace OutputKind

/-- All kinds in their order. -/
def all : List OutputKind := BindKind.all.map bind ++ [itemset]

def name : OutputKind → String
  | bind kind => kind.name
  | itemset => "itemset"

/-- The place of a kind in the order of kinds. -/
def rank : OutputKind → Nat
  | bind .relevant => 0
  | bind .readonly => 1
  | bind .required => 2
  | bind .calculate => 3
  | bind .constraint => 4
  | itemset => 5

/-- Whether the result is written into the content of nodes. -/
def writesContent : OutputKind → Bool
  | bind .relevant | bind .calculate | itemset => true
  | _ => false

end OutputKind

/-- An output of a node. -/
structure Output where
  node : NodeId
  kind : OutputKind
  deriving Repr, DecidableEq

namespace Output

/-- Outputs are ordered by slot, then by generation, then by kind. -/
protected def compare (a b : Output) : Ordering :=
  (compare a.node b.node).then (compare a.kind.rank b.kind.rank)

instance : Ord Output := ⟨Output.compare⟩

end Output

end ReactiveForm
