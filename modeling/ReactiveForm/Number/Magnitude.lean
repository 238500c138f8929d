/-!
# Magnitudes of floating-point numbers

A finite double is a sign and a magnitude `significand * 2 ^ exponent`. Exact questions about
doubles (which decimals read back as this one, what the remainder of a division is, which whole
number is in it) are questions about these two integers.
-/

set_option autoImplicit false

namespace ReactiveForm

abbrev powerOfTwo (n : Nat) : Nat := Nat.pow 2 n

abbrev powerOfTen (n : Nat) : Nat := Nat.pow 10 n

/-- The real number `significand * 2 ^ exponent`. -/
structure Magnitude where
  significand : Nat
  exponent : Int
  deriving Repr, DecidableEq

namespace Magnitude

/-- The magnitude of a finite double; the sign is dropped. -/
def ofFloat (x : Float) : Magnitude :=
  let bits := x.toBits.toNat
  let field := bits / powerOfTwo 52 % powerOfTwo 11
  let fraction := bits % powerOfTwo 52
  if field = 0 then ⟨fraction, -1074⟩
  else ⟨fraction + powerOfTwo 52, Int.ofNat field - 1075⟩

/-- The double of this magnitude; exact whenever the magnitude is one of a double. -/
def toFloat (a : Magnitude) : Float :=
  (Float.ofNat a.significand).scaleB a.exponent

/-- The significand after moving the exponent down to `e`. -/
def significandAt (a : Magnitude) (e : Int) : Nat :=
  a.significand * powerOfTwo (a.exponent - e).toNat

/-- The whole number in the magnitude; the fraction is dropped. -/
def whole (a : Magnitude) : Nat :=
  a.significand * powerOfTwo a.exponent.toNat / powerOfTwo (-a.exponent).toNat

/-- What is left of `a` after taking away `b` as often as it fits; `b` must not be zero. -/
def remainder (a b : Magnitude) : Magnitude :=
  let e := min a.exponent b.exponent
  ⟨a.significandAt e % b.significandAt e, e⟩

end Magnitude

end ReactiveForm
