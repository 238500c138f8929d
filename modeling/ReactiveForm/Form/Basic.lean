import ReactiveForm.Expr.Cache
import ReactiveForm.Function.Builtin
import ReactiveForm.Schedule.Pass
import ReactiveForm.Snapshot
import ReactiveForm.Tree.Growth

/-!
# Forms

A form that is being filled in: the live tree, the rules that compute its state, and the schedule
that keeps the state current. Every change is followed by a pass.
-/

set_option autoImplicit false

namespace ReactiveForm

structure Config where
  /-- How often an output may be computed within one pass. -/
  maxEvaluations : Nat := 16
  cacheCapacity : Nat := ExprCache.defaultCapacity
  /-- The values of the variables that every expression may use. -/
  bindings : List (String × Atom) := []

namespace Config

/-- The configuration with this limit; a limit of zero counts as one. -/
def withMaxEvaluations (c : Config) (limit : Nat) : Config :=
  { c with maxEvaluations := max limit 1 }

/-- The configuration in which a variable has this value. -/
def withVariable (c : Config) (name : String) (value : Atom) : Config :=
  { c with bindings := Table.set c.bindings name value }

end Config

structure Form where
  definition : Definition
  config : Config
  logic : Logic
  tree : Tree
  schedule : Schedule
  /-- The cycles reported by the last pass. -/
  cycles : List Cycle := []
  /-- The expressions asked for from outside. -/
  cache : ExprCache

namespace Form

variable (f : Form)

/-- Computes the outputs that are marked. -/
def recalculate : Form :=
  let p := f.logic.pass f.tree f.schedule
  { f with tree := p.tree, schedule := p.schedule, cycles := p.cycles }

/-- Computes all outputs. -/
def recompute : Form :=
  recalculate { f with schedule := f.schedule.mark (f.logic.rules.outputs f.tree) }

/-- The form of a definition, with its rules read and all outputs computed. `now` is the moment
that expressions take for the present. -/
def load (definition : Definition) (config : Config := {}) (now : Moment := .epoch) :
    Except RuleError Form := do
  let rules ← RuleBook.ofDefinition definition
  let form : Form :=
    { definition
      config
      logic := { rules, library := .builtins, bindings := config.bindings, now }
      tree := .ofDefinition definition
      schedule := .ofLimit config.maxEvaluations
      cache := .ofCapacity config.cacheCapacity }
  pure form.recompute

def root : NodeId := f.tree.root

def contains (id : NodeId) : Bool := f.tree.contains id

/-- The snapshot of a node and of what is below it. -/
def snapshot? (id : NodeId) : Option Snapshot := Snapshot.ofTree f.tree id

/-- The text of a value, or the words of a selection. -/
def value? (id : NodeId) : Option String := f.tree.value? id

/-- The instances of a range. -/
def instances (range : NodeId) : List NodeId :=
  if f.tree.isRange range then f.tree.children range else []

def children (id : NodeId) : List NodeId := f.tree.children id

def parent (id : NodeId) : Option NodeId := f.tree.parent id

/-- The nodes that an output read when it was computed last. -/
def dependencies? (o : Output) : Option (List NodeId) := f.schedule.reads.get? o

/-- The reference of a node of the document. -/
def viewReference : ViewNode → String
  | .document => "/"
  | .element id => f.tree.reference id
  | .text id => f.tree.reference id ++ "/text()"

def viewText (x : ViewNode) : String := f.tree.text (f.tree.target x)

/-- The value of an expression at the root. -/
def valueOf (e : Expr) : Except EvalError (Value ViewNode) :=
  (f.logic.environment f.tree (.element f.root) (1, 1)).evaluate e

end Form

end ReactiveForm
