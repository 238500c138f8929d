import ReactiveForm.Number.Magnitude

/-!
# Shortest decimals

The fewest decimal digits that read back as a given double. A decimal reads back when it lies
within half a unit of the double; both ends of that interval belong to it when the significand is
even. Grids `c * 10 ^ e` are searched from coarse to fine, and on each grid only the two
neighbours of the double can lie in the interval. Of two neighbours in the interval the nearer one
is taken, and the upper one on an exact tie.
-/

set_option autoImplicit false

namespace ReactiveForm

/-- The decimal `digits * 10 ^ exponent`. -/
structure Decimal where
  digits : Nat
  exponent : Int
  deriving Repr, DecidableEq

namespace Decimal

/-- The decimals that read back as one double, in units of `1 / scale`: all between `low` and
`high`, the ends included when `closed` holds. The double itself is `mid`. -/
structure Interval where
  low : Nat
  mid : Nat
  high : Nat
  scale : Nat
  closed : Bool

/-- The interval around a positive magnitude. Just above a power of two the doubles below lie
twice as close as those above, so the lower half unit is smaller. -/
def Interval.around (a : Magnitude) : Interval :=
  let below := if a.significand = powerOfTwo 52 then 1 else 2
  let up := powerOfTwo (a.exponent - 2).toNat
  { low := (4 * a.significand - below) * up
    mid := 4 * a.significand * up
    high := (4 * a.significand + 2) * up
    scale := powerOfTwo (2 - a.exponent).toNat
    closed := a.significand % 2 = 0 }

namespace Interval

/-- Whether `c * 10 ^ e` lies in the interval. -/
def contains (i : Interval) (c : Nat) (e : Int) : Bool :=
  let point := c * powerOfTen e.toNat * i.scale
  let unit := powerOfTen (-e).toNat
  if i.closed then i.low * unit ≤ point && point ≤ i.high * unit
  else i.low * unit < point && point < i.high * unit

/-- The largest `c` with `c * 10 ^ e` not above the double. -/
def floorOn (i : Interval) (e : Int) : Nat :=
  i.mid * powerOfTen (-e).toNat / (powerOfTen e.toNat * i.scale)

/-- Whether the double is at least as near to `(c + 1) * 10 ^ e` as to `c * 10 ^ e`. -/
def nearerAbove (i : Interval) (c : Nat) (e : Int) : Bool :=
  (2 * c + 1) * (powerOfTen e.toNat * i.scale) ≤ 2 * i.mid * powerOfTen (-e).toNat

/-- The decimal of the grid with step `10 ^ e` that stands for the double, if one does. -/
def pick (i : Interval) (e : Int) : Option Decimal :=
  let c := i.floorOn e
  match i.contains c e, i.contains (c + 1) e with
  | true, true => some ⟨if i.nearerAbove c e then c + 1 else c, e⟩
  | true, false => some ⟨c, e⟩
  | false, true => some ⟨c + 1, e⟩
  | false, false => none

/-- The first decimal found on the grids `e`, `e - 1`, and so on, `grids` of them. -/
def search (i : Interval) : Nat → Int → Decimal
  | 0, e => ⟨i.floorOn e, e⟩
  | grids + 1, e => (i.pick e).getD (i.search grids (e - 1))

end Interval

/-- An exponent `e` with `a < 10 ^ e`, at most two above the least one. -/
def ceilingExponent (a : Magnitude) : Int :=
  ((a.significand.log2 + 1 : Int) + a.exponent) * 30103 / 100000 + 1

/-- The shortest decimal that reads back as the positive magnitude `a`. Seventeen digits always
suffice, and the search starts at most three grids above the first digit. -/
def shortest (a : Magnitude) : Decimal :=
  (Interval.around a).search 24 (ceilingExponent a)

/-- The decimal without an exponent: the digits, zeros up to the point, and a fraction only where
there is one. -/
def positional (d : Decimal) : String :=
  let digits := Nat.toDigits 10 d.digits
  if 0 ≤ d.exponent then
    String.ofList (digits ++ List.replicate d.exponent.toNat '0')
  else
    let places := (-d.exponent).toNat
    let padded := List.replicate (places + 1 - digits.length) '0' ++ digits
    let whole := padded.length - places
    String.ofList (padded.take whole ++ '.' :: padded.drop whole)

end Decimal

end ReactiveForm
