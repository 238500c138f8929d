/-!
# Whole numbers

Whole numbers in decimal digits, read from left to right up to a limit. What is wrong first
decides what is reported.
-/

set_option autoImplicit false

namespace ReactiveForm.Number

inductive WholeError where
  | empty
  | badDigit
  | tooLarge
  | tooSmall
  deriving Repr, DecidableEq

def WholeError.message : WholeError → String
  | empty => "cannot parse integer from empty string"
  | badDigit => "invalid digit found in string"
  | tooLarge => "number too large to fit in target type"
  | tooSmall => "number too small to fit in target type"

/-- The value of digits that continue a number; `beyond` is reported past the limit. -/
def continueWhole (limit : Nat) (beyond : WholeError) :
    (value : Nat) → List Char → Except WholeError Nat
  | value, [] => .ok value
  | value, c :: cs =>
    if !c.isDigit then .error .badDigit
    else
      let next := value * 10 + (c.toNat - '0'.toNat)
      if limit < next then .error beyond else continueWhole limit beyond next cs

/-- A number from 0 to the limit, which may have a plus sign. -/
def readNat (limit : Nat) : List Char → Except WholeError Nat
  | [] => .error .empty
  | ['+'] => .error .badDigit
  | '+' :: digits => continueWhole limit .tooLarge 0 digits
  | digits => continueWhole limit .tooLarge 0 digits

/-- A number up to the limit, whose negative counterpart reaches one further down. -/
def readInt (limit : Nat) : List Char → Except WholeError Int
  | [] => .error .empty
  | ['+'] => .error .badDigit
  | ['-'] => .error .badDigit
  | '+' :: digits => (continueWhole limit .tooLarge 0 digits).map Int.ofNat
  | '-' :: digits => (continueWhole (limit + 1) .tooSmall 0 digits).map fun n => -Int.ofNat n
  | digits => (continueWhole limit .tooLarge 0 digits).map Int.ofNat

end ReactiveForm.Number
