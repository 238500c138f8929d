import ReactiveForm.Number.Shortest

/-!
# Numbers as text

Numbers are written without an exponent, with the fewest digits that read back, and zero has no
sign. They are read from an optional minus sign and plain decimal digits; any other text is not a
number.
-/

set_option autoImplicit false

namespace ReactiveForm.Number

def nan : Float := 0.0 / 0.0

def infinity : Float := 1.0 / 0.0

/-- The written form of a number. -/
def text (x : Float) : String :=
  if x.isNaN then "NaN"
  else if x.isInf then (if 0.0 < x then "Infinity" else "-Infinity")
  else if x == 0.0 then "0"
  else
    let digits := (Decimal.shortest (Magnitude.ofFloat x)).positional
    if x < 0.0 then "-" ++ digits else digits

/-- The value of a row of decimal digits. -/
def digitsValue (cs : List Char) : Nat :=
  cs.foldl (fun n c => 10 * n + (c.toNat - '0'.toNat)) 0

/-- The number written as `whole.fraction`. -/
def ofDigits (whole fraction : List Char) : Float :=
  Float.ofScientific (digitsValue (whole ++ fraction)) true fraction.length

/-- An unsigned decimal: digits with an optional fraction, where one of the two may be empty. -/
def unsigned? (cs : List Char) : Option Float :=
  let whole := cs.takeWhile Char.isDigit
  match cs.dropWhile Char.isDigit with
  | [] => if whole.isEmpty then none else some (ofDigits whole [])
  | '.' :: fraction =>
    if fraction.all Char.isDigit && !(whole.isEmpty && fraction.isEmpty) then
      some (ofDigits whole fraction)
    else none
  | _ :: _ => none

/-- A decimal with an optional minus sign. -/
def signed? : List Char → Option Float
  | '-' :: cs => (unsigned? cs).map (- ·)
  | cs => unsigned? cs

/-- The blanks that may surround a number and separate the tokens of an expression. -/
def isPadding (c : Char) : Bool :=
  c = ' ' || c = '\t' || c = '\r' || c = '\n'

/-- The text without padding at either end. -/
def trimPadding (cs : List Char) : List Char :=
  ((cs.dropWhile isPadding).reverse.dropWhile isPadding).reverse

/-- The number that a text stands for; not a number when the text is no decimal. -/
def read (s : String) : Float :=
  (signed? (trimPadding s.toList)).getD nan

/-- Zero and NaN are false. -/
def isTrue (x : Float) : Bool :=
  x != 0.0 && !x.isNaN

end ReactiveForm.Number
