import ReactiveForm.Rules

/-!
# Schedules

Which outputs are to be computed, and which nodes each output has read when it was computed last.
An output is ready when none of the nodes that it reads is about to be written.
-/

set_option autoImplicit false

namespace ReactiveForm

/-- Sets of outputs, as lists in the order of outputs. -/
abbrev OutputSet := List Output

def OutputSet.insert (o : Output) : OutputSet → OutputSet
  | [] => [o]
  | p :: ps =>
    match compare o p with
    | .lt => o :: p :: ps
    | .eq => p :: ps
    | .gt => p :: insert o ps

structure Schedule where
  /-- The nodes that each output has read. -/
  reads : Table Output (List NodeId) := []
  /-- The outputs that have read each node. -/
  readers : Table NodeId (List Output) := []
  /-- The outputs to be computed. -/
  dirty : OutputSet := []
  /-- How often an output may be computed within one pass. -/
  limit : Nat

namespace Schedule

variable (s : Schedule)

/-- An empty schedule; a limit of zero counts as one. -/
def ofLimit (limit : Nat) : Schedule := { limit := max limit 1 }

def mark (outputs : List Output) : Schedule :=
  { s with dirty := outputs.foldl (fun dirty o => dirty.insert o) s.dirty }

def unmark (o : Output) : Schedule :=
  { s with dirty := s.dirty.filter (· ≠ o) }

def readersOf (id : NodeId) : List Output :=
  (s.readers.get? id).getD []

/-- Marks the outputs that have read a node or one of its ancestors. -/
def markReaders (t : Tree) (id : NodeId) : Schedule :=
  s.mark ((id :: t.ancestors id).flatMap s.readersOf)

/-- The readers without the outputs for which `gone` holds. -/
def withdraw (gone : Output → Bool) (readers : Table NodeId (List Output)) :
    Table NodeId (List Output) :=
  readers.filterMap fun (id, outputs) =>
    let kept := outputs.filter fun o => !gone o
    if kept.isEmpty then none else some (id, kept)

/-- Enters an output among the readers of a node. -/
def enroll (o : Output) (readers : Table NodeId (List Output)) (id : NodeId) :
    Table NodeId (List Output) :=
  let outputs := (readers.get? id).getD []
  if o ∈ outputs then readers else readers.set id (o :: outputs)

/-- Puts the nodes that an output has read now in the place of those read before. -/
def setReads (o : Output) (nodes : List NodeId) : Schedule :=
  { s with
    reads := s.reads.set o nodes
    readers := nodes.foldl (enroll o) (withdraw (· = o) s.readers) }

/-- Drops all outputs and all readers of removed nodes. -/
def forget (removed : List NodeId) : Schedule :=
  { s with
    reads := s.reads.without (·.node ∈ removed)
    readers := (withdraw (·.node ∈ removed) s.readers).without (· ∈ removed)
    dirty := s.dirty.filter (·.node ∉ removed) }

/-- The nodes whose contents are about to be written. -/
def pending : List NodeId :=
  (s.dirty.filter (·.kind.writesContent)).map (·.node)

/-- Whether an output reads no pending node, its own node aside. An output never computed has read
nothing. -/
def isReady (pending : List NodeId) (o : Output) : Bool :=
  (s.reads.get? o).all fun nodes => nodes.all fun id => id = o.node || id ∉ pending

/-- The output to compute next: the first one that is ready, or the first one if none is. -/
def next? : Option Output :=
  (s.dirty.find? (s.isReady s.pending)).or s.dirty.head?

end Schedule

end ReactiveForm
