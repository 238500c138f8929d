/-!
# Trees by their links

A tree given by the parent and the children of each node. The links of a host may be anything, so
every walk is bounded by a height; where the links make a tree of that height, a walk reaches its
natural end.
-/

set_option autoImplicit false

namespace ReactiveForm

structure Links (N : Type) where
  parent : N → Option N
  children : N → List N
  /-- No chain of parents and no chain of children is longer than this. -/
  height : Nat

namespace Links

variable {N : Type} (t : Links N)

/-- The ancestors of a node, at most `n`, the nearest first. -/
def ancestorsUpTo : (n : Nat) → N → List N
  | 0, _ => []
  | n + 1, x =>
    match t.parent x with
    | none => []
    | some p => p :: ancestorsUpTo n p

def ancestors (x : N) : List N :=
  t.ancestorsUpTo t.height x

/-- The topmost node above a node. -/
def topmost (x : N) : N :=
  (t.ancestors x).getLast?.getD x

/-- The way from the topmost node down to a node. -/
def branch (x : N) : List N :=
  (x :: t.ancestors x).reverse

/-- A node and the nodes below it down to `n` levels, each before its own children. -/
def subtreeUpTo : (n : Nat) → N → List N
  | 0, x => [x]
  | n + 1, x => x :: (t.children x).flatMap (subtreeUpTo n)

/-- A node and all nodes below it. -/
def subtree (x : N) : List N :=
  t.subtreeUpTo t.height x

def descendants (x : N) : List N :=
  (t.children x).flatMap (t.subtreeUpTo (t.height - 1))

end Links

end ReactiveForm
