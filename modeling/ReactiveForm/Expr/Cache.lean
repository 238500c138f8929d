import ReactiveForm.Expr.Grammar

/-!
# Expressions kept by their text

A store of the most recently used expressions, so that a text is read once as long as it is in use.
-/

set_option autoImplicit false

namespace ReactiveForm

structure ExprCache where
  /-- At least one. -/
  capacity : Nat
  /-- The expressions by their text, the most recently used first. -/
  entries : List (String × Expr) := []
  hits : Nat := 0
  misses : Nat := 0

namespace ExprCache

/-- The capacity used where none is chosen. -/
def defaultCapacity : Nat := 256

/-- An empty store; a capacity of zero counts as one. -/
def ofCapacity (capacity : Nat) : ExprCache := { capacity := max capacity 1 }

def size (c : ExprCache) : Nat := c.entries.length

def isEmpty (c : ExprCache) : Bool := c.entries.isEmpty

/-- The expression of a text, from the store if it is there. A text that is no expression leaves
the stored ones as they are. -/
def read (c : ExprCache) (text : String) : Except SyntaxError Expr × ExprCache :=
  match c.entries.lookup text with
  | some e =>
    (.ok e, { c with
      entries := (text, e) :: c.entries.filter (·.1 != text)
      hits := c.hits + 1 })
  | none =>
    match Expr.read text with
    | .ok e =>
      (.ok e, { c with
        entries := ((text, e) :: c.entries).take c.capacity
        misses := c.misses + 1 })
    | .error e => (.error e, { c with misses := c.misses + 1 })

end ExprCache

end ReactiveForm
