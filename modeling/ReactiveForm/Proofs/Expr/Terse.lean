import ReactiveForm.Proofs.Expr.RoundTrip

/-!
# Text without needless parentheses

Operators are graded by how weakly they bind. An operand stands in parentheses only where it binds
weaker than its place allows: on the left of a binary operator no weaker than the operator itself,
on the right stronger.
-/

set_option autoImplicit false

namespace ReactiveForm

/-- How weakly an operator binds. Signs, which bind stronger, have grade 2, and unions grade 1. -/
def Operator.grade : Operator → Nat
  | .or => 8
  | .and => 7
  | .eq | .ne => 6
  | .lt | .le | .gt | .ge => 5
  | .add | .sub => 4
  | .mul | .div | .mod => 3

theorem Operator.grade_le (op : Operator) : op.grade ≤ 8 := by
  cases op <;> decide

namespace Expr

/-- How weakly the outermost operator binds. -/
def grade : Expr → Nat
  | .binary op _ _ => op.grade
  | .negate _ => 2
  | .union _ _ => 1
  | _ => 0

theorem grade_le (e : Expr) : e.grade ≤ 8 := by
  cases e with
  | binary op l r => exact op.grade_le
  | negate e => exact (by decide : 2 ≤ 8)
  | union l r => exact (by decide : 1 ≤ 8)
  | text | number | «variable» | call | filter | path => exact Nat.zero_le 8

/-- The text of an expression in a place for a grade. -/
def inPlace (allowed : Nat) (e : Expr) (text : List Char) : List Char :=
  if e.grade ≤ allowed then text else '(' :: (text ++ [')'])

/-- The text with parentheses only where the grades ask for them; `numeral` spells numbers. -/
def terse (numeral : Float → List Char) : Expr → List Char
  | .binary op l r =>
    inPlace op.grade l (terse numeral l) ++ between op (inPlace (op.grade - 1) r (terse numeral r))
  | .negate e => '-' :: inPlace 2 e (terse numeral e)
  | .union l r =>
    inPlace 1 l (terse numeral l) ++ ' ' :: '|' :: ' ' :: inPlace 0 r (terse numeral r)
  | .number x => numeral x
  | .text v => quote v
  | .variable name => '$' :: name.toList
  | .path .root [] => ['(', '/', ')']
  | .path .context [⟨.child, .name n, []⟩] => n.toList
  | e => e.canonical

/-- What operators make of names, literals, variables and the root. A text has one kind of quotes in
it at most, and a number is what its spelling stands for. -/
inductive Combined (numeral : Float → List Char) : Expr → Prop where
  | name {n : String} : IsQualifiedName n.toList →
    Combined numeral (.path .context [⟨.child, .name n, []⟩])
  | number {x : Float} : Number.unsigned? (numeral x) = some x → Combined numeral (.number x)
  | text {v : String} : ('\'' ∈ v.toList → '"' ∉ v.toList) → Combined numeral (.text v)
  | bound {name : String} : IsQualifiedName name.toList → Combined numeral (.variable name)
  | root : Combined numeral (.path .root [])
  | binary {l r : Expr} (op : Operator) : Combined numeral l → Combined numeral r →
    Combined numeral (.binary op l r)
  | negate {e : Expr} : Combined numeral e → Combined numeral (.negate e)
  | union {l r : Expr} : Combined numeral l → Combined numeral r → Combined numeral (.union l r)

example : terse (fun _ => ['1'])
    (.binary .sub (.binary .sub (.number 1) (.negate (.number 1)))
      (.binary .sub (.union (.negate (.number 1)) (.number 1)) (.number 1)))
    = "1 - -1 - ((-1) | 1 - 1)".toList := by decide +kernel

end Expr

end ReactiveForm
