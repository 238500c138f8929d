import ReactiveForm.Document.Basic
import ReactiveForm.Expr.Syntax

/-!
# Nodes along an axis

The nodes that a location step finds from a context node, the nearest first.
-/

set_option autoImplicit false

namespace ReactiveForm.HostTree

variable {N : Type} [DecidableEq N] (t : HostTree N)

/-- The children of the parent before and after a node, both as the parent lists them. Attributes
have no siblings. -/
def siblings (x : N) : List N × List N :=
  match t.kind x, t.parent x with
  | .attr, _ => ([], [])
  | _, none => ([], [])
  | _, some p =>
    let all := t.children p
    match all.idxOf? x with
    | none => ([], [])
    | some i => (all.take i, all.drop (i + 1))

/-- The element of an attribute, and any other node itself. -/
def owner (x : N) : N :=
  match t.kind x, t.parent x with
  | .attr, some p => p
  | _, _ => x

/-- The nodes after a node and after all it holds. -/
def followingAll (x : N) : List N :=
  (x :: t.ancestors x).flatMap fun y => (t.siblings y).2.flatMap t.subtree

/-- The nodes before a node, its ancestors left out, backwards. -/
def precedingAll (x : N) : List N :=
  (x :: t.ancestors x).flatMap fun y =>
    (t.siblings y).1.reverse.flatMap fun s => (t.subtree s).reverse

/-- The nodes along an axis. What an element holds comes after its attributes. -/
def along (x : N) : Axis → List N
  | .child => t.children x
  | .descendant => t.descendants x
  | .attributes => t.attributes x
  | .self => [x]
  | .descendantOrSelf => x :: t.descendants x
  | .followingSibling => (t.siblings x).2
  | .following =>
    let e := t.owner x
    if e = x then t.followingAll x else t.descendants e ++ t.followingAll e
  | .namespaces => []
  | .parent => (t.parent x).toList
  | .ancestor => t.ancestors x
  | .precedingSibling => (t.siblings x).1.reverse
  | .preceding => t.precedingAll (t.owner x)
  | .ancestorOrSelf => x :: t.ancestors x

/-- The kind of node that a name test asks for. -/
def principalKind : Axis → NodeKind
  | .attributes => .attr
  | _ => .element

/-- What stands before the first colon of a name. -/
def qualifierOf (name : String) : Option (List Char) :=
  let cs := name.toList
  if cs.contains ':' then some (cs.takeWhile (· != ':')) else none

/-- Whether a node on the axis passes the test. -/
def passes (axis : Axis) (test : NodeTest) (x : N) : Bool :=
  match test with
  | .any => t.kind x = principalKind axis
  | .name n => t.kind x = principalKind axis && t.name x == some n
  | .qualifier q =>
    t.kind x = principalKind axis && (t.name x).bind qualifierOf == some q.toList
  | .node => true
  | .text => t.kind x = .text
  | .comment => t.kind x = .comment

end ReactiveForm.HostTree
