import ReactiveForm.Document.Basic
import ReactiveForm.Tree.Basic

/-!
# The document of a live tree

Expressions see a live tree as a document: an element for each node that is no range, with the
instances of a range in its place, and a text below each leaf that is not empty.
-/

set_option autoImplicit false

namespace ReactiveForm

inductive ViewNode where
  | document
  | element (id : NodeId)
  | text (id : NodeId)
  deriving Repr, DecidableEq, Ord

namespace Tree

variable (t : Tree)

/-- The live node that is read where a node of the document is read. -/
def target : ViewNode → NodeId
  | .document => t.root
  | .element id => id
  | .text id => id

/-- The parent of a node, ranges passed over. -/
def outerNode (id : NodeId) : Option NodeId :=
  match t.parent id with
  | none => none
  | some p => if t.isRange p then t.parent p else some p

/-- The children of a node, with its instances in the place of a range. -/
def innerNodes (id : NodeId) : List NodeId :=
  (t.children id).flatMap fun c => if t.isRange c then t.children c else [c]

def viewParent : ViewNode → Option ViewNode
  | .document => none
  | .element id => if id = t.root then some .document else (t.outerNode id).map .element
  | .text id => some (.element id)

def viewChildren : ViewNode → List ViewNode
  | .document => [.element t.root]
  | .element id =>
    if t.isLeaf id then (if (t.text id).isEmpty then [] else [.text id])
    else (t.innerNodes id).map .element
  | .text _ => []

def viewKind : ViewNode → NodeKind
  | .document => .document
  | .element _ => .element
  | .text _ => .text

def viewName : ViewNode → Option String
  | .element id => (t.get? id).map (·.definition.name)
  | _ => none

/-- The document that expressions see. -/
def document : Document ViewNode where
  parent := t.viewParent
  children := t.viewChildren
  height := t.arena.size + 2
  kind := viewKind
  name := t.viewName
  stringValue x := t.text (t.target x)
  root _ := .document

end Tree

end ReactiveForm
