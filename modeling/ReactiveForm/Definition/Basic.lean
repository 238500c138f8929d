import ReactiveForm.Text.Blank

/-!
# Form definitions

The definition tree of a form: groups, values, selections and repeats, with the expressions bound
to them. A definition is named by its reference, the path of names from the root.
-/

set_option autoImplicit false

namespace ReactiveForm

/-- What an expression bound to a node computes. -/
inductive BindKind where
  | relevant
  | readonly
  | required
  | calculate
  | constraint
  deriving Repr, DecidableEq

namespace BindKind

def all : List BindKind := [relevant, readonly, required, calculate, constraint]

def name : BindKind → String
  | relevant => "relevant"
  | readonly => "readonly"
  | required => "required"
  | calculate => "calculate"
  | constraint => "constraint"

end BindKind

/-- The expressions bound to a node, as texts. -/
structure Bind where
  relevant : Option String := none
  readonly : Option String := none
  required : Option String := none
  calculate : Option String := none
  constraint : Option String := none
  constraintMessage : Option String := none
  deriving Repr, DecidableEq

namespace Bind

def text (b : Bind) : BindKind → Option String
  | .relevant => b.relevant
  | .readonly => b.readonly
  | .required => b.required
  | .calculate => b.calculate
  | .constraint => b.constraint

/-- The expression of a kind without blanks around it; a blank one counts as absent. -/
def expression (b : Bind) (kind : BindKind) : Option String :=
  ((b.text kind).map Text.trimmed).filter (!·.isEmpty)

/-- The expressions that are there, in the order of their kinds. -/
def expressions (b : Bind) : List (BindKind × String) :=
  BindKind.all.filterMap fun kind => (b.expression kind).map fun e => (kind, e)

/-- Whether no expression is there. -/
def isEmpty (b : Bind) : Bool :=
  b.expressions.isEmpty

end Bind

inductive SelectMode where
  /-- An item selected takes the place of the one before. -/
  | single
  /-- An item selected joins those before. -/
  | multiple
  deriving Repr, DecidableEq

/-- An item offered for selection. -/
structure Item where
  value : String
  label : String := ""
  deriving Repr, DecidableEq

/-- Items computed from the form: one for each node that `nodeset` selects, with value and label
evaluated at that node. -/
structure Itemset where
  nodeset : String
  value : String := "value"
  label : String := "label"
  deriving Repr, DecidableEq

/-- What every definition has. -/
structure Header where
  /-- The path of names from the root, without positions. -/
  reference : String
  name : String
  bind : Bind := {}
  label : Option String := none
  hint : Option String := none
  deriving Repr, DecidableEq

inductive NodeType where
  | root
  | group
  | range
  | inst
  | value
  | select
  deriving Repr, DecidableEq

namespace NodeType

def name : NodeType → String
  | root => "root"
  | group => "subtree"
  | range => "repeat-range"
  | inst => "repeat-instance"
  | value => "value-node"
  | select => "select"

/-- Whether nodes of the type hold content and no children. -/
def isLeaf : NodeType → Bool
  | value | select => true
  | _ => false

def category (t : NodeType) : String :=
  if t.isLeaf then "control" else "structure"

end NodeType

inductive Definition where
  | root (header : Header) (children : List Definition)
  | group (header : Header) (children : List Definition)
  /-- A repeat: what a new instance looks like, and the instances present from the start. -/
  | range (header : Header) (template : Definition) (instances : List Definition)
  /-- An instance of a repeat; it has the reference of the repeat. -/
  | inst (header : Header) (children : List Definition)
  | value (header : Header) (default : String)
  | select (header : Header) (mode : SelectMode) (default : List String) (items : List Item)
      (itemset : Option Itemset)
  deriving Repr

namespace Definition

def header : Definition → Header
  | root h _ => h
  | group h _ => h
  | range h _ _ => h
  | inst h _ => h
  | value h _ => h
  | select h _ _ _ _ => h

def type : Definition → NodeType
  | root _ _ => .root
  | group _ _ => .group
  | range _ _ _ => .range
  | inst _ _ => .inst
  | value _ _ => .value
  | select _ _ _ _ _ => .select

/-- The definitions of the children; the instances of a repeat are not among them. -/
def children : Definition → List Definition
  | root _ cs => cs
  | group _ cs => cs
  | inst _ cs => cs
  | _ => []

def reference (d : Definition) : String := d.header.reference

def name (d : Definition) : String := d.header.name

def bind (d : Definition) : Bind := d.header.bind

def isLeaf (d : Definition) : Bool := d.type.isLeaf

/-- The items of a selection that are written in the definition. -/
def items : Definition → List Item
  | select _ _ _ items _ => items
  | _ => []

def itemset : Definition → Option Itemset
  | select _ _ _ _ itemset => itemset
  | _ => none

mutual

/-- The first definition with a reference, depth first. A repeat is found before what its template
holds, and its default instances are not searched. -/
def find? (wanted : String) : Definition → Option Definition
  | root h cs => if h.reference = wanted then some (root h cs) else findAmong wanted cs
  | group h cs => if h.reference = wanted then some (group h cs) else findAmong wanted cs
  | range h t is => if h.reference = wanted then some (range h t is) else find? wanted t
  | inst h cs => if h.reference = wanted then some (inst h cs) else findAmong wanted cs
  | value h v => if h.reference = wanted then some (value h v) else none
  | select h m v is s => if h.reference = wanted then some (select h m v is s) else none

def findAmong (wanted : String) : List Definition → Option Definition
  | [] => none
  | d :: ds => (find? wanted d).or (findAmong wanted ds)

end

mutual

/-- The definition with the default content of all leaves taken away. -/
def cleared : Definition → Definition
  | root h cs => root h (clearedAll cs)
  | group h cs => group h (clearedAll cs)
  | range h t is => range h (cleared t) (clearedAll is)
  | inst h cs => inst h (clearedAll cs)
  | value h _ => value h ""
  | select h m _ is s => select h m [] is s

def clearedAll : List Definition → List Definition
  | [] => []
  | d :: ds => cleared d :: clearedAll ds

end

end Definition

end ReactiveForm
