import ReactiveForm.Definition.Basic
import ReactiveForm.Expr.Grammar
import ReactiveForm.Table
import ReactiveForm.Tree.Basic

/-!
# Rules

The expressions of a form, read once and kept by the reference of their definition. All
definitions with one reference share the rules of the first of them: the template of a repeat and
its instances do.
-/

set_option autoImplicit false

namespace ReactiveForm

/-- The expressions that compute the items of a selection. -/
structure ItemRule where
  nodeset : Expr
  value : Expr
  label : Expr
  deriving Repr

/-- The expressions of a definition. -/
structure Rules where
  expressions : List (BindKind × Expr) := []
  itemset : Option ItemRule := none
  deriving Repr

/-- An expression that cannot be read. -/
structure RuleError where
  reference : String
  /-- What the expression is for. -/
  part : String
  error : SyntaxError
  deriving Repr, DecidableEq

def RuleError.message (e : RuleError) : String :=
  s!"invalid {e.part} expression on {e.reference}: {e.error.message}"

namespace Rules

/-- The outputs that the expressions compute. -/
def kinds (r : Rules) : List OutputKind :=
  r.expressions.map (fun p => .bind p.1) ++ (r.itemset.map fun _ => OutputKind.itemset).toList

def readPart (reference part text : String) : Except RuleError Expr :=
  match Expr.read text with
  | .ok e => .ok e
  | .error error => .error { reference, part, error }

def readItemset (reference : String) (s : Itemset) : Except RuleError ItemRule := do
  let nodeset ← readPart reference "itemset" s.nodeset
  let value ← readPart reference "itemset value" s.value
  let label ← readPart reference "itemset label" s.label
  pure { nodeset, value, label }

def readBinds (reference : String) :
    List (BindKind × String) → Except RuleError (List (BindKind × Expr))
  | [] => pure []
  | (kind, text) :: rest => do
    let e ← readPart reference kind.name text
    let es ← readBinds reference rest
    pure ((kind, e) :: es)

/-- The rules of a definition with this header and itemset. -/
def ofHeader (h : Header) (itemset : Option Itemset) : Except RuleError Rules := do
  let expressions ← readBinds h.reference h.bind.expressions
  match itemset with
  | none => pure { expressions }
  | some s => do pure { expressions, itemset := some (← readItemset h.reference s) }

end Rules

/-- The rules of a form by reference. -/
abbrev RuleBook := Table String Rules

namespace RuleBook

/-- Reads the rules of a definition unless its reference has rules already. -/
def enter (book : RuleBook) (h : Header) (itemset : Option Itemset) : Except RuleError RuleBook :=
  if (Table.get? book h.reference).isSome then .ok book
  else (Rules.ofHeader h itemset).map fun rules => book.set h.reference rules

mutual

/-- Reads the rules of a definition and of all that it holds. A range has none of its own. -/
def extend (book : RuleBook) : Definition → Except RuleError RuleBook
  | .root h cs => do extendAll (← book.enter h none) cs
  | .group h cs => do extendAll (← book.enter h none) cs
  | .range _ template instances => do extendAll (← extend book template) instances
  | .inst h cs => do extendAll (← book.enter h none) cs
  | .value h _ => book.enter h none
  | .select h _ _ _ itemset => book.enter h itemset

def extendAll (book : RuleBook) : List Definition → Except RuleError RuleBook
  | [] => .ok book
  | d :: ds => do extendAll (← extend book d) ds

end

/-- The rules of a form. -/
def ofDefinition (d : Definition) : Except RuleError RuleBook :=
  extend [] d

/-- The rules of a live node; ranges have none. -/
def rulesAt (book : RuleBook) (t : Tree) (id : NodeId) : Option Rules :=
  match t.definition? id with
  | none => none
  | some d => if d.type = .range then none else Table.get? book d.reference

/-- The outputs of a live node. -/
def outputsAt (book : RuleBook) (t : Tree) (id : NodeId) : List Output :=
  match book.rulesAt t id with
  | none => []
  | some rules => rules.kinds.map fun kind => ⟨id, kind⟩

/-- The outputs of all live nodes. -/
def outputs (book : RuleBook) (t : Tree) : List Output :=
  t.nodes.flatMap (book.outputsAt t)

end RuleBook

end ReactiveForm
