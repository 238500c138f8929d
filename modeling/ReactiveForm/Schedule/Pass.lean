import ReactiveForm.Outcome
import ReactiveForm.Schedule.Basic
import ReactiveForm.Tree.Entry

/-!
# Passes

A pass computes outputs until none is marked any more. Each result is stored in the tree, and where
it changes the content of a node, the outputs that have read the node are marked again. An output
that is still marked after `limit` computations is left as it is and reported as a cycle, so that
every pass comes to its end. Outputs of nodes that are not relevant are not computed.
-/

set_option autoImplicit false

namespace ReactiveForm

/-- An output that has not settled. -/
structure Cycle where
  output : Output
  /-- The reference of the node. -/
  reference : String
  evaluations : Nat
  deriving Repr, DecidableEq

def Cycle.message (c : Cycle) : String :=
  s!"dependency cycle: {c.output.kind.name} of {c.reference} did not settle after " ++
    s!"{c.evaluations} evaluations"

/-- A pass on its way. -/
structure Pass where
  tree : Tree
  schedule : Schedule
  /-- The outputs computed so far, the last one first. -/
  log : List Output := []
  /-- The cycles reported so far, the first one first. -/
  cycles : List Cycle := []

namespace Pass

variable (book : RuleBook) (evaluate : Tree → Output → Outcome) (p : Pass)

/-- Takes over the tree after a write to a node. -/
def wrote (id : NodeId) (write : Bool × Tree) : Pass :=
  let (changed, tree) := write
  { p with tree, schedule := if changed then p.schedule.markReaders tree id else p.schedule }

def setStatus (id : NodeId) (f : Status → Status) : Pass :=
  { p with tree := p.tree.modify id fun n => { n with status := f n.status } }

def mark (outputs : List Output) : Pass :=
  { p with schedule := p.schedule.mark outputs }

/-- Empties the leaves at and below a node. -/
def clearBelow (id : NodeId) : Pass :=
  (p.tree.subtree id).foldl (fun p id => p.wrote id (p.tree.clear id)) p

/-- Stores the relevance of a node. What ceases to be relevant is emptied, and what becomes
relevant is computed again. -/
def setRelevant (o : Output) (relevant : Bool) : Pass :=
  let next := p.setStatus o.node fun s => { s with relevant }
  match p.tree.isRelevant o.node, next.tree.isRelevant o.node with
  | true, false => next.clearBelow o.node
  | false, true =>
    next.mark (((next.tree.subtree o.node).flatMap (book.outputsAt next.tree)).filter (· ≠ o))
  | _, _ => next

/-- Stores a result. -/
def apply (o : Output) (value : OutputValue) : Pass :=
  match o.kind, value with
  | .bind .relevant, .flag b => p.setRelevant book o b
  | .bind .readonly, .flag b => p.setStatus o.node fun s => { s with readonly := b }
  | .bind .required, .flag b => p.setStatus o.node fun s => { s with required := b }
  | .bind .constraint, .flag b => p.setStatus o.node fun s => { s with satisfied := b }
  | .bind .calculate, .text s => p.wrote o.node (p.tree.write o.node s)
  | .itemset, .items list =>
    let next := p.setStatus o.node fun s => { s with items := list }
    next.wrote o.node (next.tree.reviseSelection o.node)
  | _, _ => p

def setFailure (o : Output) (message : Option String) : Pass :=
  p.setStatus o.node fun s => { s with failures := s.failures.set o.kind message }

/-- Computes an output and stores what comes of it. -/
def compute (o : Output) : Pass :=
  let outcome := evaluate p.tree o
  let next : Pass :=
    { p with schedule := p.schedule.setReads o outcome.reads, log := o :: p.log }
  match outcome.result with
  | .ok value => (next.setFailure o none).apply book o value
  | .error e => next.setFailure o (some e.message)

/-- Whether an output waits until its node becomes relevant. The relevance of a node itself depends
on its ancestors only. -/
def isSuppressed (o : Output) : Bool :=
  match o.kind with
  | .bind .relevant => !p.tree.isReachable o.node
  | _ => !p.tree.isRelevant o.node

def hasCycle (o : Output) : Bool := p.cycles.any (·.output = o)

def reportCycle (o : Output) : Pass :=
  { p with
    cycles := p.cycles ++
      [{ output := o, reference := p.tree.reference o.node, evaluations := p.log.count o }] }

/-- Deals with a marked output. -/
def step (o : Output) : Pass :=
  let p := { p with schedule := p.schedule.unmark o }
  if !p.tree.contains o.node || p.hasCycle o then p
  else if p.schedule.limit ≤ p.log.count o then p.reportCycle o
  else if p.isSuppressed o then p
  else p.compute book evaluate o

/-- Deals with marked outputs, at most `n`. -/
def runUpTo : (n : Nat) → Pass → Pass
  | 0, p => p
  | n + 1, p =>
    match p.schedule.next? with
    | none => p
    | some o => runUpTo n (p.step book evaluate o)

/-- The outputs that can be marked during a pass. -/
def reach : List Output :=
  p.schedule.dirty ++ p.schedule.readers.flatMap (·.2) ++ book.outputs p.tree

/-- A number of steps in which every pass ends: each output is marked at the start at most once,
and once more for each computation of an output. -/
def budget : Nat :=
  let n := (p.reach book).length
  n * (1 + p.schedule.limit * n)

/-- Deals with marked outputs until there are none. -/
def run : Pass := runUpTo book evaluate (p.budget book) p

end Pass

/-- The pass over a tree under a logic. -/
def Logic.pass (l : Logic) (tree : Tree) (schedule : Schedule) : Pass :=
  Pass.run l.rules l.outcome { tree, schedule }

end ReactiveForm
