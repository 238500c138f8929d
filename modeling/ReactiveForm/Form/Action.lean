import ReactiveForm.Form.Basic

/-!
# Actions on forms

What a user may do to a form. An action is checked first; one that is refused changes nothing, and
any other is followed by a pass.
-/

set_option autoImplicit false

namespace ReactiveForm

/-- Why an action is refused. -/
inductive Refusal where
  | indexOutOfRange (reference : String) (index : Int) (count : Nat)
  | unknownNode (id : NodeId)
  | unknownReference (reference : String)
  | notRange (reference : String)
  | notValue (reference : String)
  | notSelect (reference : String)
  | notRelevant (reference : String)
  | readonly (reference : String)
  | unknownItem (reference item : String)
  | unsupported (reference operation : String)
  | templateMismatch (reference template : String)
  deriving Repr, DecidableEq

def Refusal.message : Refusal → String
  | indexOutOfRange reference index count =>
    s!"no repeat instance at index {index} in {reference} ({count} instances)"
  | unknownNode id => s!"node {id.text} does not exist"
  | unknownReference reference => s!"no node matches {reference}"
  | notRange reference => s!"{reference} is not a repeat range"
  | notValue reference => s!"{reference} is not a value node"
  | notSelect reference => s!"{reference} is not a select"
  | notRelevant reference => s!"{reference} is not relevant"
  | readonly reference => s!"{reference} is read-only"
  | unknownItem reference item => s!"'{item}' is not an item of {reference}"
  | unsupported reference operation => s!"{operation} is not supported on {reference}"
  | templateMismatch reference template => s!"template {template} cannot be used for {reference}"

namespace Form

/-- An action on a form, which fails with `ε` or returns `α`. -/
abbrev Action (ε α : Type) := ExceptT ε (StateM Form) α

/-- The reference of a live node. -/
def referenceOf (id : NodeId) : Action Refusal String := do
  let tree := (← get).tree
  if tree.contains id then pure (tree.reference id) else throw (.unknownNode id)

/-- Refuses to write to a node that is not relevant or that is read-only. -/
def checkWritable (id : NodeId) (reference : String) : Action Refusal Unit := do
  let tree := (← get).tree
  if !tree.isRelevant id then throw (.notRelevant reference)
  if tree.isReadonly id then throw (.readonly reference)

/-- Takes over the tree after a write to a node. -/
def wrote (f : Form) (id : NodeId) (write : Bool × Tree) : Form :=
  let (changed, tree) := write
  { f with tree, schedule := if changed then f.schedule.markReaders tree id else f.schedule }

/-- Writes a text to a value. -/
def setValue (id : NodeId) (text : String) : Action Refusal Unit := do
  let reference ← referenceOf id
  match (← get).tree.content? id with
  | some (.text _) => pure ()
  | some (.selection _) => throw (.unsupported reference "set_value")
  | _ => throw (.notValue reference)
  checkWritable id reference
  modify fun f => (f.wrote id (f.tree.write id text)).recalculate

/-- The mode of a selection that may be changed by an item, and the values selected. -/
def checkSelect (id : NodeId) (item : String) : Action Refusal (SelectMode × List String) := do
  let reference ← referenceOf id
  match (← get).tree.get? id with
  | none => throw (.unknownNode id)
  | some n =>
    match n.definition, n.content with
    | .select _ mode _ items itemset, .selection values =>
      checkWritable id reference
      let declared := !items.isEmpty || itemset.isSome
      if declared && !n.status.items.any (·.value == item) then
        throw (.unknownItem reference item)
      pure (mode, values)
    | _, _ => throw (.notSelect reference)

/-- Selects an item, in the place of another one or along with others as the mode has it. -/
def select (id : NodeId) (item : String) : Action Refusal Unit := do
  let (mode, values) ← checkSelect id item
  let next := match mode with
    | .single => [item]
    | .multiple => if item ∈ values then values else values ++ [item]
  modify fun f => (f.wrote id (f.tree.selectValues id next)).recalculate

def deselect (id : NodeId) (item : String) : Action Refusal Unit := do
  let (_, values) ← checkSelect id item
  let next := values.filter (· ≠ item)
  modify fun f => (f.wrote id (f.tree.selectValues id next)).recalculate

/-- Adds instances of a template to a range behind the instance at `after`, counted from zero; -1
stands for the front, and none for the end. -/
def insert (range : NodeId) (reference : String) (after : Option Int) (count : Nat)
    (template : Definition) : Action Refusal Unit := do
  let size := ((← get).instances range).length
  let last : Int := size - 1
  let place := after.getD last
  if place < -1 || last < place then throw (.indexOutOfRange reference place size)
  modify fun f =>
    { f with tree := f.tree.insertInstances range (place + 1).toNat count template }.recompute

/-- Adds instances to a range as its own template has them. -/
def addInstances (range : NodeId) (after : Option Int) (count : Nat) : Action Refusal Unit := do
  let reference ← referenceOf range
  match (← get).tree.template? range with
  | none => throw (.notRange reference)
  | some template => insert range reference after count template

/-- Adds instances to a range as a given template has them, which must be a definition of its
instances. -/
def addInstancesFrom (range : NodeId) (after : Option Int) (count : Nat) (template : Definition) :
    Action Refusal Unit := do
  let reference ← referenceOf range
  match (← get).tree.template? range with
  | none => throw (.notRange reference)
  | some own =>
    if template.reference ≠ own.reference || template.type ≠ .inst then
      throw (.templateMismatch reference template.reference)
    insert range reference after count template

/-- The largest number of 64 bits with a sign; no larger index is reported. -/
def maxIndex : Nat := 9223372036854775807

/-- Removes instances of a range from the one at `start` on, counted from zero. -/
def removeInstances (range : NodeId) (start count : Nat) : Action Refusal Unit := do
  let reference ← referenceOf range
  if !(← get).tree.isRange range then throw (.notRange reference)
  let size := ((← get).instances range).length
  if size ≤ start || size - start < count then
    let index := if size ≤ start then start else size
    throw (.indexOutOfRange reference (min index maxIndex : Nat) size)
  modify fun f =>
    let (removed, tree) := f.tree.removeInstances range start count
    { f with tree, schedule := f.schedule.forget removed }.recompute

/-- Makes a function known to all expressions, and computes all outputs again because some may
have failed for want of it. -/
def register (name : String) (parameterTags : List String) (resultTag : String)
    (body : Body ViewNode) : Action RegistrationError Unit := do
  match (← get).logic.library.register name parameterTags resultTag body with
  | .error e => throw e
  | .ok library => modify fun f => { f with logic := { f.logic with library } }.recompute

/-- The value of an expression at the root. -/
def evaluate (text : String) : Action EvalError (Value ViewNode) := do
  let (read, cache) := (← get).cache.read text
  modify fun f => { f with cache }
  match read with
  | .error e => throw (.badSyntax e)
  | .ok e =>
    match (← get).valueOf e with
    | .ok v => pure v
    | .error e => throw e

/-- The live node with a reference, or else the first one that an expression selects. -/
def resolve (text : String) : Action Refusal NodeId := do
  let text := Text.trimmed text
  match (← get).tree.find? text with
  | some id => pure id
  | none =>
    let unknown (_ : EvalError) : Refusal := .unknownReference text
    let value ← ExceptT.adapt unknown (evaluate text)
    match value.toNodes with
    | .ok (x :: _) => do pure ((← get).tree.target x)
    | _ => throw (.unknownReference text)

end Form

end ReactiveForm
