import ReactiveForm.Definition.Json
import ReactiveForm.Tree.Basic

/-!
# Snapshots

What a live tree looks like from outside: for each node its place, its content and its status.
The status of a node that is not relevant means nothing and is shown as it was last.
-/

set_option autoImplicit false

namespace ReactiveForm

structure Snapshot where
  id : NodeId
  /-- The reference with places of instances. -/
  reference : String
  definitionReference : String
  name : String
  type : NodeType
  label : Option String
  hint : Option String
  /-- The text of a value, or the words of a selection. -/
  value : Option String
  relevant : Bool
  readonly : Bool
  required : Bool
  valid : Bool
  errors : List String
  /-- The items offered by a selection. -/
  items : Option (List Item)
  children : List Snapshot
  deriving Repr

namespace Snapshot

/-- Whether a node is in order: a node that is relevant computes, keeps its constraint, and is
filled where it must be. -/
def isValid (relevant : Bool) (status : Status) (value : Option String) : Bool :=
  !relevant || (status.failures.isEmpty && status.satisfied &&
    (!status.required || value.all (!·.isEmpty)))

/-- What is wrong with a node: its failures, and the message of its constraint if that does not
hold. -/
def complaints (bind : Bind) (status : Status) : List String :=
  status.failures.messages ++ (if status.satisfied then [] else bind.constraintMessage.toList)

/-- The snapshot of a live node with the snapshots of its children. -/
def ofNode (t : Tree) (id : NodeId) (n : Node) (children : List Snapshot) : Snapshot :=
  let h := n.definition.header
  let value := n.content.text?
  let relevant := t.isRelevant id
  { id
    reference := t.reference id
    definitionReference := h.reference
    name := h.name
    type := n.definition.type
    label := h.label
    hint := h.hint
    value
    relevant
    readonly := t.isReadonly id
    required := n.status.required
    valid := isValid relevant n.status value
    errors := complaints h.bind n.status
    items := if n.definition.type = .select then some n.status.items else none
    children }

/-- The snapshot of a node and of what is below it down to `n` levels. -/
def upTo (t : Tree) : (n : Nat) → NodeId → Option Snapshot
  | 0, id => (t.get? id).map fun node => ofNode t id node []
  | n + 1, id => (t.get? id).map fun node => ofNode t id node (node.children.filterMap (upTo t n))

/-- The snapshot of a node and of all that is below it. -/
def ofTree (t : Tree) (id : NodeId) : Option Snapshot :=
  upTo t t.arena.size id

mutual

/-- A node and all nodes below it, in document order. -/
def rows (s : Snapshot) : List Snapshot :=
  match s with
  | ⟨_, _, _, _, _, _, _, _, _, _, _, _, _, _, children⟩ => s :: allRows children

def allRows : List Snapshot → List Snapshot
  | [] => []
  | s :: ss => rows s ++ allRows ss

end

/-- The first node in document order with a reference. -/
def find? (s : Snapshot) (reference : String) : Option Snapshot :=
  s.rows.find? (·.reference == reference)

/-- The value of the node with a reference. -/
def valueOf (s : Snapshot) (reference : String) : Option String :=
  (s.find? reference).bind (·.value)

mutual

def toJson : Snapshot → Json
  | ⟨id, reference, definitionReference, name, type, label, hint, value, relevant, readonly,
      required, valid, errors, items, children⟩ =>
    .object ([("id", .string id.text), ("reference", .string reference),
        ("definitionReference", .string definitionReference), ("nodeName", .string name),
        ("nodeType", .string type.name), ("category", .string type.category)] ++
      Json.optionalMember "label" (label.map .string) ++
      Json.optionalMember "hint" (hint.map .string) ++
      Json.optionalMember "value" (value.map .string) ++
      [("relevant", .bool relevant), ("readonly", .bool readonly), ("required", .bool required),
        ("valid", .bool valid)] ++
      Json.listMember "errors" (errors.map .string) ++
      Json.optionalMember "items" (items.map fun is => .array (is.map Item.toJson)) ++
      Json.listMember "children" (allToJson children))

def allToJson : List Snapshot → List Json
  | [] => []
  | s :: ss => toJson s :: allToJson ss

end

end Snapshot

end ReactiveForm
