import ReactiveForm.Links

/-!
# Documents

What the expression language needs to know of the tree that it looks at. A host answers for its own
nodes: `HostTree` holds the answers, and `Document` adds the root and the order of nodes, which a
host may leave to the definitions given here.
-/

set_option autoImplicit false

namespace ReactiveForm

inductive NodeKind where
  | document
  | element
  | attr
  | text
  | comment
  deriving Repr, DecidableEq

/-- A tree of nodes `N`. -/
structure HostTree (N : Type) extends Links N where
  kind : N → NodeKind
  /-- The qualified name of an element or an attribute. -/
  name : N → Option String
  stringValue : N → String
  attributes : N → List N := fun _ => []

namespace HostTree

variable {N : Type} (t : HostTree N)

/-! ## Document order -/

variable [DecidableEq N] [Ord N]

/-- The order of two nodes below `p`: attributes stand before children. Nodes that `p` does not
list are ordered by their handles. -/
def compareSiblings (p x y : N) : Ordering :=
  let listed := t.attributes p ++ t.children p
  match listed.idxOf? x, listed.idxOf? y with
  | some i, some j => compare i j
  | _, _ => compare x y

/-- The order of the ends of two branches that agree down to `above`. Where they part at the top,
the handles of the ends decide. -/
def compareBranches (ends : Ordering) : (above : Option N) → List N → List N → Ordering
  | _, [], [] => .eq
  | _, [], _ :: _ => .lt
  | _, _ :: _, [] => .gt
  | above, x :: xs, y :: ys =>
    if x = y then compareBranches ends (some x) xs ys
    else
      match above with
      | none => ends
      | some p => t.compareSiblings p x y

/-- Document order read off the tree: a node stands before its descendants, siblings stand in the
order in which their parent lists them, and different trees are ordered by the handles. -/
def compareByAncestry (x y : N) : Ordering :=
  if x = y then .eq
  else t.compareBranches (compare x y) none (t.branch x) (t.branch y)

end HostTree

/-- A tree with its root and its order of nodes. -/
structure Document (N : Type) [DecidableEq N] [Ord N] extends HostTree N where
  root : N → N := toHostTree.topmost
  order : N → N → Ordering := toHostTree.compareByAncestry

namespace Document

variable {N : Type} [DecidableEq N] [Ord N] (d : Document N)

/-- Moves `x` in front of those nodes of a backward list that come after it. -/
def settle (x : N) : List N → List N
  | [] => [x]
  | y :: ys => if d.order x y = .lt then y :: settle x ys else x :: y :: ys

/-- The nodes in document order; equal ones keep their order. -/
def sort (xs : List N) : List N :=
  (xs.foldl (fun sorted x => d.settle x sorted) []).reverse

/-- The nodes in document order, each once. -/
def nodeSet (xs : List N) : List N :=
  (d.sort xs).eraseReps

end Document

end ReactiveForm
