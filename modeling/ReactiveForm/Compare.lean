import ReactiveForm.Value

/-!
# Comparison

The comparison operators on values. A node-set compares as some node of it does, by the text of the
node; against a boolean it counts as whether it has nodes.
-/

set_option autoImplicit false

namespace ReactiveForm

/-- The operator with its operands exchanged. -/
def Operator.swapped : Operator → Operator
  | .lt => .gt
  | .le => .ge
  | .gt => .lt
  | .ge => .le
  | op => op

/-- Equality of atoms: as booleans if one is a boolean, else as numbers if one is a number, else as
texts. -/
def Atom.equal : Atom → Atom → Bool
  | .boolean a, b => a == b.toBool
  | a, .boolean b => a.toBool == b
  | .number a, b => a == b.toNumber
  | a, .number b => a.toNumber == b
  | .string a, .string b => a == b

/-- Comparison of atoms; order is the order of numbers. -/
def Atom.compare (op : Operator) (a b : Atom) : Bool :=
  match op with
  | .eq => a.equal b
  | .ne => !a.equal b
  | .lt => a.toNumber < b.toNumber
  | .le => a.toNumber ≤ b.toNumber
  | .gt => b.toNumber < a.toNumber
  | .ge => b.toNumber ≤ a.toNumber
  | _ => false

namespace Value

variable {N : Type}

def compareNodes (t : HostTree N) (op : Operator) (xs : List N) (b : Atom) : Bool :=
  match b with
  | .boolean _ => Atom.compare op (.boolean !xs.isEmpty) b
  | _ => xs.any fun x => Atom.compare op (.string (t.stringValue x)) b

def compare (t : HostTree N) (op : Operator) : Value N → Value N → Bool
  | .nodes xs, .nodes ys =>
    xs.any fun x => ys.any fun y =>
      Atom.compare op (.string (t.stringValue x)) (.string (t.stringValue y))
  | .nodes xs, .atom b => compareNodes t op xs b
  | .atom a, .nodes ys => compareNodes t op.swapped ys a
  | .atom a, .atom b => Atom.compare op a b

end Value

end ReactiveForm
