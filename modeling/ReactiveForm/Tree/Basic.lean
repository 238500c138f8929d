import ReactiveForm.Links
import ReactiveForm.Tree.Node

/-!
# Live trees

The nodes of a form that is being filled in. A range stands between a repeat's place in the form
and its instances; it has an identifier of its own, but the references of the nodes below it do
not name it.
-/

set_option autoImplicit false

namespace ReactiveForm

structure Tree where
  arena : Arena Node
  root : NodeId

namespace Tree

variable (t : Tree)

def get? (id : NodeId) : Option Node := t.arena.get? id

def definition? (id : NodeId) : Option Definition := (t.get? id).map fun n => n.definition

def contains (id : NodeId) : Bool := t.arena.contains id

def modify (id : NodeId) (f : Node → Node) : Tree :=
  { t with arena := t.arena.modify id f }

def parent (id : NodeId) : Option NodeId :=
  (t.get? id).bind (·.parent)

def children (id : NodeId) : List NodeId :=
  ((t.get? id).map (·.children)).getD []

def links : Links NodeId where
  parent := t.parent
  children := t.children
  height := t.arena.size

def ancestors (id : NodeId) : List NodeId := t.links.ancestors id

/-- A node and its descendants in document order. -/
def subtree (id : NodeId) : List NodeId := t.links.subtree id

/-- All live nodes in document order. -/
def nodes : List NodeId := t.subtree t.root

def isRange (id : NodeId) : Bool := (t.get? id).any (·.isRange)

def isLeaf (id : NodeId) : Bool := (t.get? id).any (·.definition.isLeaf)

def content? (id : NodeId) : Option Content := (t.get? id).map fun n => n.content

/-- The text of a value, or the words of a selection. -/
def value? (id : NodeId) : Option String := (t.content? id).bind fun c => c.text?

/-- The texts of a node and of all nodes below it, one after the other. -/
def text (id : NodeId) : String :=
  String.join ((t.subtree id).filterMap t.value?)

/-! ## Status -/

/-- Whether a node's own condition, all others aside, makes it relevant. -/
def hasRelevance (id : NodeId) : Bool := (t.get? id).any (·.status.relevant)

/-- Whether all ancestors are relevant; the condition of the node itself is not asked. -/
def isReachable (id : NodeId) : Bool := (t.ancestors id).all t.hasRelevance

def isRelevant (id : NodeId) : Bool := t.hasRelevance id && t.isReachable id

def isCalculated (id : NodeId) : Bool := (t.get? id).any (·.definition.bind.calculate.isSome)

def hasLock (id : NodeId) : Bool := (t.get? id).any (·.status.readonly)

/-- A node is read-only where it or an ancestor says so, or where its content is calculated. -/
def isReadonly (id : NodeId) : Bool :=
  t.isCalculated id || (id :: t.ancestors id).any t.hasLock

/-! ## Places -/

/-- The place of an instance among the instances of its range, counted from one, and their
number. -/
def placeIn (range id : NodeId) : Option (Nat × Nat) :=
  let instances := t.children range
  (instances.idxOf? id).map fun i => (i + 1, instances.length)

/-- The place of the nearest instance at or above a node, given the ancestors of the node. -/
def placeBelow : (id : NodeId) → (above : List NodeId) → Option (Nat × Nat)
  | _, [] => none
  | id, p :: ps => if t.isRange p then t.placeIn p id else placeBelow p ps

/-- The place of the nearest instance at or above a node. -/
def place (id : NodeId) : Option (Nat × Nat) := t.placeBelow id (t.ancestors id)

/-- What a node adds to references: its name, and the place of an instance. -/
def segment (id : NodeId) : String :=
  match t.get? id with
  | none => ""
  | some n =>
    match n.parent.filter t.isRange with
    | none => "/" ++ n.definition.name
    | some range =>
      let place := ((t.placeIn range id).map (·.1)).getD 0
      "/" ++ n.definition.name ++ "[" ++ toString place ++ "]"

/-- The reference of a node, with places of instances, such as `/f/visit[2]/date`. -/
def reference (id : NodeId) : String :=
  let above := (t.ancestors id).filter fun p => !t.isRange p
  String.join ((id :: above).reverse.map t.segment)

/-- The first node in document order with a reference. -/
def find? (reference : String) : Option NodeId :=
  t.nodes.find? fun id => t.reference id == reference

end Tree

end ReactiveForm
