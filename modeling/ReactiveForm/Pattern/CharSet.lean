import ReactiveForm.Text.Blank
import ReactiveForm.Text.Ranges

/-!
# Sets of characters

A set of characters is a list of ranges of code points in ascending order with gaps between them.
The tables of Unicode write such a set as a text: `41-5A` is a range, `B5` a single code point and
`100-12E/2` every second one from 100 to 12E, all in hexadecimal digits.
-/

set_option autoImplicit false

namespace ReactiveForm

/-- A set of characters. -/
structure CharSet where
  ranges : Array (Nat × Nat)
  deriving Repr, DecidableEq

namespace CharSet

/-- The greatest code point. -/
def lastCode : Nat := 0x10FFFF

def hasCode (s : CharSet) (n : Nat) : Bool :=
  Text.inRanges s.ranges n s.ranges.size 0 s.ranges.size

def contains (s : CharSet) (c : Char) : Bool := s.hasCode c.toNat

def isEmpty (s : CharSet) : Bool := s.ranges.isEmpty

/-! ## Operations -/

/-- Ranges in ascending order, those without a gap between them made one. The first range is the
one from `first` to `last`. -/
def closeGaps (first last : Nat) : List (Nat × Nat) → List (Nat × Nat)
  | [] => [(first, last)]
  | (a, b) :: rest =>
    if a ≤ last + 1 then closeGaps first (max last b) rest
    else (first, last) :: closeGaps a b rest

/-- The set of the code points in any of the ranges. -/
def ofRanges (ranges : List (Nat × Nat)) : CharSet :=
  match ranges.mergeSort fun r s => r.1 ≤ s.1 with
  | [] => ⟨#[]⟩
  | (a, b) :: rest => ⟨(closeGaps a b rest).toArray⟩

/-- What lies between the ranges from the code point `next` on. -/
def gapsFrom (next : Nat) : List (Nat × Nat) → List (Nat × Nat)
  | [] => if next ≤ lastCode then [(next, lastCode)] else []
  | (a, b) :: rest =>
    if next < a then (next, a - 1) :: gapsFrom (b + 1) rest else gapsFrom (b + 1) rest

def none : CharSet := ⟨#[]⟩

def all : CharSet := ⟨#[(0, lastCode)]⟩

def range (first last : Char) : CharSet := ofRanges [(first.toNat, last.toNat)]

def one (c : Char) : CharSet := range c c

def complement (s : CharSet) : CharSet := ⟨(gapsFrom 0 s.ranges.toList).toArray⟩

def union (s t : CharSet) : CharSet := ofRanges (s.ranges.toList ++ t.ranges.toList)

def unions (sets : List CharSet) : CharSet := ofRanges (sets.flatMap (·.ranges.toList))

def intersection (s t : CharSet) : CharSet := (s.complement.union t.complement).complement

def difference (s t : CharSet) : CharSet := (s.complement.union t).complement

/-- What lies in one of the sets only. -/
def symmetricDifference (s t : CharSet) : CharSet :=
  (s.union t).difference (s.intersection t)

/-- The one character of the set, if there is only one. -/
def single? (s : CharSet) : Option Char :=
  match s.ranges.toList with
  | [(a, b)] => if a = b then some (Char.ofNat a) else Option.none
  | _ => Option.none

/-! ## Notation -/

def digitValue (c : Char) : Nat :=
  if c.isDigit then c.toNat - '0'.toNat else c.toNat - 'A'.toNat + 10

def hexValue (digits : List Char) : Nat :=
  digits.foldl (fun n c => 16 * n + digitValue c) 0

/-- The ranges of one word of the notation. -/
def runRanges (word : List Char) : List (Nat × Nat) :=
  let span := word.takeWhile (· != '/')
  let step := word.drop (span.length + 1)
  let start := span.takeWhile (· != '-')
  let stop := span.drop (start.length + 1)
  let first := hexValue start
  let last := if stop.isEmpty then first else hexValue stop
  if step.isEmpty then [(first, last)]
  else
    let stride := hexValue step
    (List.range ((last - first) / stride + 1)).map fun i => (first + stride * i, first + stride * i)

/-- The set that lines in the notation stand for. -/
def ofNotation (lines : List String) : CharSet :=
  ofRanges ((lines.flatMap Text.words).flatMap fun word => runRanges word.toList)

end CharSet

/-- A set in the notation with the names it goes by, in small letters without blanks, hyphens and
underscores. -/
structure NamedSet where
  names : List String
  codes : List String
  deriving Repr

/-- The set of a name in a table. -/
def NamedSet.find? (table : List NamedSet) (name : String) : Option CharSet :=
  (table.find? (·.names.contains name)).map (CharSet.ofNotation ·.codes)

end ReactiveForm
