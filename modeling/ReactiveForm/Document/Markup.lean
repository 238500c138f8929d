import ReactiveForm.Document.Basic

/-!
# Documents from markup

A document given by its elements, attributes, texts and comments. Nodes are numbered in document
order from the document node 0, attributes right after their element, so the order of nodes is the
order of their numbers.
-/

set_option autoImplicit false

namespace ReactiveForm

inductive Markup where
  | element (name : String) (attributes : List (String × String)) (content : List Markup)
  | text (value : String)
  | comment (value : String)
  deriving Repr, Inhabited

namespace Markup

/-- What is known of one numbered node. -/
structure Entry where
  kind : NodeKind
  name : Option String := none
  value : String
  parent : Option Nat
  children : List Nat := []
  attributes : List Nat := []
  deriving Repr

mutual

/-- How many nodes a piece of markup has. -/
def size : Markup → Nat
  | element _ attributes content => 1 + attributes.length + sizes content
  | text _ => 1
  | comment _ => 1

def sizes : List Markup → Nat
  | [] => 0
  | m :: ms => size m + sizes ms

end

mutual

/-- The text of a piece of markup without its comments. -/
def textContent : Markup → String
  | element _ _ content => textContents content
  | text value => value
  | comment _ => ""

def textContents : List Markup → String
  | [] => ""
  | m :: ms => textContent m ++ textContents ms

end

mutual

/-- How many nodes stand one below the other. -/
def depth : Markup → Nat
  | element _ _ content => 1 + depths content
  | text _ => 1
  | comment _ => 1

def depths : List Markup → Nat
  | [] => 1
  | m :: ms => max (depth m) (depths ms)

end

/-- The numbers of consecutive pieces of markup, the first of which is `id`. -/
def numbers (id : Nat) : List Markup → List Nat
  | [] => []
  | m :: ms => id :: numbers (id + m.size) ms

def attributeEntry (owner : Nat) (a : String × String) : Entry :=
  { kind := .attr, name := some a.1, value := a.2, parent := some owner }

mutual

/-- The nodes of a piece of markup whose first number is `id`. -/
def entries (parent id : Nat) : Markup → List Entry
  | element name attributes content =>
    let first := id + 1 + attributes.length
    { kind := .element, name := some name, value := textContents content, parent := some parent
      children := numbers first content
      attributes := List.range' (id + 1) attributes.length } ::
      attributes.map (attributeEntry id) ++ entriesOf id first content
  | text value => [{ kind := .text, value, parent := some parent }]
  | comment value => [{ kind := .comment, value, parent := some parent }]

def entriesOf (parent id : Nat) : List Markup → List Entry
  | [] => []
  | m :: ms => entries parent id m ++ entriesOf parent (id + m.size) ms

end

/-- All nodes of a document with this content, the document node first. -/
def table (content : List Markup) : Array Entry :=
  ({ kind := .document, value := textContents content, parent := none,
     children := numbers 1 content } :: entriesOf 0 1 content).toArray

/-- The tree of a table of nodes. -/
def hostTree (nodes : Array Entry) (height : Nat) : HostTree Nat where
  kind x := (nodes[x]?.map Entry.kind).getD .text
  name x := nodes[x]?.bind Entry.name
  stringValue x := (nodes[x]?.map Entry.value).getD ""
  parent x := nodes[x]?.bind Entry.parent
  children x := (nodes[x]?.map Entry.children).getD []
  attributes x := (nodes[x]?.map Entry.attributes).getD []
  height

/-- The document with the given content. Its root is node 0 and its order is that of numbers. -/
def document (content : List Markup) : Document Nat :=
  { hostTree (table content) (depths content + 1) with
    root := fun _ => 0
    order := compare }

/-- The first element of a document. -/
def rootElement (content : List Markup) : Option Nat :=
  let d := document content
  (d.children 0).find? fun x => d.kind x = .element

end Markup

end ReactiveForm
