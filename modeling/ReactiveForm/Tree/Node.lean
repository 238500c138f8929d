import ReactiveForm.Output

/-!
# Nodes of a live form

A node of a form that is being filled in: its definition, its content and the last results of its
outputs.
-/

set_option autoImplicit false

namespace ReactiveForm

inductive Content where
  /-- Nothing of its own; such a node holds other nodes. -/
  | inner
  | text (value : String)
  | selection (values : List String)
  deriving Repr, DecidableEq

namespace Content

/-- What a new node of a definition holds. Where items are given, only these are selected. -/
def initial : Definition → Content
  | .value _ default => .text default
  | .select _ mode default items _ =>
    let offered := default.filter fun v => items.isEmpty || items.any (·.value == v)
    .selection (match mode with
      | .single => offered.take 1
      | .multiple => offered)
  | _ => .inner

/-- The text of a value, or the words of a selection. -/
def text? : Content → Option String
  | inner => none
  | text value => some value
  | selection values => some (" ".intercalate values)

end Content

/-- Why outputs of a node could not be computed, for each kind of output. -/
structure Failures where
  relevant : Option String := none
  readonly : Option String := none
  required : Option String := none
  calculate : Option String := none
  constraint : Option String := none
  itemset : Option String := none
  deriving Repr, DecidableEq

namespace Failures

def get (f : Failures) : OutputKind → Option String
  | .bind .relevant => f.relevant
  | .bind .readonly => f.readonly
  | .bind .required => f.required
  | .bind .calculate => f.calculate
  | .bind .constraint => f.constraint
  | .itemset => f.itemset

def set (f : Failures) (kind : OutputKind) (message : Option String) : Failures :=
  match kind with
  | .bind .relevant => { f with relevant := message }
  | .bind .readonly => { f with readonly := message }
  | .bind .required => { f with required := message }
  | .bind .calculate => { f with calculate := message }
  | .bind .constraint => { f with constraint := message }
  | .itemset => { f with itemset := message }

/-- The messages in the order of kinds, each after the name of its kind. -/
def messages (f : Failures) : List String :=
  OutputKind.all.filterMap fun kind => (f.get kind).map fun m => kind.name ++ ": " ++ m

def isEmpty (f : Failures) : Bool :=
  OutputKind.all.all fun kind => (f.get kind).isNone

theorem get_set (f : Failures) (kind other : OutputKind) (message : Option String) :
    (f.set kind message).get other = if other = kind then message else f.get other := by
  rcases kind with (_ | _ | _ | _ | _) | _ <;> rcases other with (_ | _ | _ | _ | _) | _ <;> rfl

end Failures

/-- The last results of the outputs of a node; a failed output keeps its last result. -/
structure Status where
  relevant : Bool := true
  readonly : Bool := false
  required : Bool := false
  /-- Whether the constraint holds. -/
  satisfied : Bool := true
  /-- The items offered for selection. -/
  items : List Item := []
  failures : Failures := {}
  deriving Repr, DecidableEq

structure Node where
  definition : Definition
  parent : Option NodeId
  children : List NodeId := []
  content : Content
  status : Status := {}

namespace Node

/-- A node without children, as its definition wants it. -/
def fresh (definition : Definition) (parent : Option NodeId) : Node where
  definition
  parent
  content := .initial definition
  status := { items := definition.items }

def isRange (n : Node) : Bool := n.definition.type = .range

end Node

end ReactiveForm
