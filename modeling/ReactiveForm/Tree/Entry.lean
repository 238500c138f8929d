import ReactiveForm.Text.Blank
import ReactiveForm.Tree.Basic

/-!
# Entry of content

Writing to the leaves of a live tree. A write tells whether it has changed anything.
-/

set_option autoImplicit false

namespace ReactiveForm.Tree

variable (t : Tree) (id : NodeId)

/-- Gives a node this content; whether that is a change comes with the tree. -/
def put (content : Content) : Bool × Tree :=
  match t.get? id with
  | none => (false, t)
  | some n =>
    if n.content = content then (false, t)
    else (true, t.modify id fun n => { n with content })

/-- Empties a leaf. -/
def clear : Bool × Tree :=
  match t.content? id with
  | some (.text _) => t.put id (.text "")
  | some (.selection _) => t.put id (.selection [])
  | _ => (false, t)

/-- Selects values. Where items are declared, only values offered by the current items are
selected; a single selection takes the first of them. -/
def selectValues (values : List String) : Bool × Tree :=
  match t.get? id with
  | some n =>
    match n.definition, n.content with
    | .select _ mode _ items itemset, .selection _ =>
      let offered :=
        if items.isEmpty && itemset.isNone then values
        else values.filter fun v => n.status.items.any (·.value == v)
      t.put id (.selection (match mode with
        | .single => offered.take 1
        | .multiple => offered))
    | _, _ => (false, t)
  | none => (false, t)

/-- Writes a text to a value, or the words of the text to a selection. -/
def write (text : String) : Bool × Tree :=
  match t.content? id with
  | some (.text _) => t.put id (.text text)
  | some (.selection _) => t.selectValues id (Text.words text).eraseDups
  | _ => (false, t)

/-- Drops selected values that the current items do not offer. -/
def reviseSelection : Bool × Tree :=
  match t.content? id with
  | some (.selection values) => t.selectValues id values
  | _ => (false, t)

end ReactiveForm.Tree
