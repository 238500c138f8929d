import ReactiveForm.Function.Texts

/-!
# Functions on numbers
-/

set_option autoImplicit false

namespace ReactiveForm.Builtin

variable {N : Type} [DecidableEq N] [Ord N]

/-- The function on one number. -/
def onNumber (f : Float → Float) : Body N := fun _ args =>
  pure (.number (f (numberArgument args 0)))

/-- The function on two numbers. -/
def onNumbers (f : Float → Float → Float) : Body N := fun _ args =>
  pure (.number (f (numberArgument args 0) (numberArgument args 1)))

def number : Body N := fun c args => do
  match args with
  | [] => pure (.number (Number.read (← c.textOf c.node)))
  | v :: _ => pure (.number (← c.valueNumber v))

def sum : Body N := fun c args => do
  let xs ← Reading.ofExcept (args.headD (.nodes [])).toNodes
  let numbers ← c.numbers (.nodes xs)
  pure (.number (Number.sum numbers))

/-- The smallest of all numbers in the arguments. -/
def min : Body N := fun c args => do
  pure (.number (Number.reduce Number.smaller (← c.allNumbers args)))

/-- The largest of all numbers in the arguments. -/
def max : Body N := fun c args => do
  pure (.number (Number.reduce Number.larger (← c.allNumbers args)))

/-- The number nearest to the ratio of a circle's circumference to its diameter. -/
def pi : Float := Float.ofBits 0x400921FB54442D18

end ReactiveForm.Builtin
