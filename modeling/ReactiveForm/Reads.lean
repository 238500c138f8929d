/-!
# Reads

The nodes that an evaluation has read, in the order in which each was read first.
-/

set_option autoImplicit false

namespace ReactiveForm

structure Reads (N : Type) where
  nodes : List N := []
  deriving Repr, DecidableEq

namespace Reads

variable {N : Type} [DecidableEq N]

def empty : Reads N := {}

/-- Adds a node unless it has been read before. -/
def record (r : Reads N) (x : N) : Reads N :=
  if x ∈ r.nodes then r else ⟨r.nodes ++ [x]⟩

def recordAll (r : Reads N) (xs : List N) : Reads N :=
  xs.foldl record r

def contains (r : Reads N) (x : N) : Bool :=
  x ∈ r.nodes

def size (r : Reads N) : Nat :=
  r.nodes.length

def isEmpty (r : Reads N) : Bool :=
  r.nodes.isEmpty

end Reads

end ReactiveForm
