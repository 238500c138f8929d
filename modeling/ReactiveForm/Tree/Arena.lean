/-!
# Arenas

Storage for nodes whose identifiers are never given out twice. A slot that becomes empty goes to
its next generation and is used again before a new slot is made, the one emptied last first; an
identifier names a slot together with its generation, so that one of a removed node stays without
meaning.
-/

set_option autoImplicit false

namespace ReactiveForm

structure NodeId where
  index : Nat
  generation : Nat
  deriving Repr, DecidableEq

namespace NodeId

def text (id : NodeId) : String := s!"{id.index}v{id.generation}"

/-- Identifiers are ordered by slot, then by generation. -/
protected def compare (a b : NodeId) : Ordering :=
  (compare a.index b.index).then (compare a.generation b.generation)

instance : Ord NodeId := ⟨NodeId.compare⟩

end NodeId

structure Slot (α : Type) where
  generation : Nat := 0
  content : Option α

structure Arena (α : Type) where
  slots : List (Slot α) := []
  /-- The empty slots, the one emptied last first. -/
  free : List Nat := []

namespace Arena

variable {α : Type}

/-- The number of slots, empty ones included. -/
def size (a : Arena α) : Nat := a.slots.length

def get? (a : Arena α) (id : NodeId) : Option α :=
  match a.slots[id.index]? with
  | some slot => if slot.generation = id.generation then slot.content else none
  | none => none

def contains (a : Arena α) (id : NodeId) : Bool := (a.get? id).isSome

def modify (a : Arena α) (id : NodeId) (f : α → α) : Arena α :=
  if a.contains id then
    { a with slots := a.slots.modify id.index fun s => { s with content := s.content.map f } }
  else a

/-- Stores a content in an empty slot, or in a new one if none is empty. -/
def alloc (a : Arena α) (content : α) : NodeId × Arena α :=
  match a.free with
  | [] => (⟨a.size, 0⟩, { a with slots := a.slots ++ [⟨0, some content⟩] })
  | i :: rest =>
    let generation := (a.slots[i]?.map (·.generation)).getD 0
    (⟨i, generation⟩,
      { slots := a.slots.modify i fun s => { s with content := some content }, free := rest })

/-- Empties the slot of an identifier. -/
def release (a : Arena α) (id : NodeId) : Arena α :=
  if a.contains id then
    { slots := a.slots.modify id.index fun s => ⟨s.generation + 1, none⟩
      free := id.index :: a.free }
  else a

end Arena

end ReactiveForm
