import ReactiveForm.Number.Text

/-!
# Arithmetic on numbers

The operations of the expression language that the floating-point unit does not offer as they are
needed here.
-/

set_option autoImplicit false

namespace ReactiveForm.Number

/-- The remainder of the division truncated toward zero; it has the sign of the dividend. -/
def remainder (x y : Float) : Float :=
  if x.isNaN || y.isNaN || x.isInf || y == 0.0 then nan
  else if y.isInf || x == 0.0 then x
  else
    let r := ((Magnitude.ofFloat x).remainder (Magnitude.ofFloat y)).toFloat
    if x < 0.0 then -r else r

/-- The nearest integer; halves go toward positive infinity. -/
def round (x : Float) : Float :=
  if x.isNaN || x.isInf then x else (x + 0.5).floor

/-- The integer part; it keeps the sign of the number, also when it is zero. -/
def truncate (x : Float) : Float :=
  if x.toBits >>> 63 == 1 then x.ceil else x.floor

/-- The smaller of two numbers, the first when they are equal. -/
def smaller (x y : Float) : Float :=
  if y < x then y else x

/-- The larger of two numbers, the first when they are equal. -/
def larger (x y : Float) : Float :=
  if x < y then y else x

/-- The reduction of a list of numbers; not a number when the list is empty or any entry is not a
number. -/
def reduce (pick : Float → Float → Float) : List Float → Float
  | [] => nan
  | x :: xs => if (x :: xs).any Float.isNaN then nan else xs.foldl pick x

/-- The sum of a list of numbers, from left to right. The empty sum is the zero that changes no
number under addition, which is the negative one. -/
def sum (xs : List Float) : Float :=
  xs.foldl (· + ·) (-0.0)

end ReactiveForm.Number
