import ReactiveForm.Pattern.Ends
import Std.Data.HashMap

/-!
# What simple patterns may cost

A simple pattern is matched by an automaton over the bytes of the text in UTF-8, which runs forwards
and also backwards. A pattern whose automaton would be too large, whose counts are too great or
which nests too deep is refused. The sizes are counted in bytes.
-/

set_option autoImplicit false

namespace ReactiveForm

/-! ## Sequences of bytes -/

/-- A range of bytes. -/
abbrev ByteRange := Nat × Nat

namespace Bytes

/-- The bytes of a code point in UTF-8. -/
def ofCode (n : Nat) : List Nat :=
  if n < 0x80 then [n]
  else if n < 0x800 then [0xC0 + n / 64, 0x80 + n % 64]
  else if n < 0x10000 then [0xE0 + n / 4096, 0x80 + n / 64 % 64, 0x80 + n % 64]
  else [0xF0 + n / 262144, 0x80 + n / 4096 % 64, 0x80 + n / 64 % 64, 0x80 + n % 64]

/-- The pieces of a range inside which all code points have as many bytes. -/
def sameLength (a b : Nat) : List (Nat × Nat) :=
  [(0, 0x7F), (0x80, 0x7FF), (0x800, 0xD7FF), (0xE000, 0xFFFF), (0x10000, 0x10FFFF)].filterMap
    fun (lo, hi) => if max a lo ≤ min b hi then some (max a lo, min b hi) else none

/-- The pieces of a range at the last bytes that do not run through all their values. `block` is the
number of code points that differ in the bytes considered so far. -/
def split (block : Nat) : (levels : Nat) → Nat × Nat → List (Nat × Nat)
  | 0, r => [r]
  | levels + 1, (a, b) =>
    if a / block = b / block then split (block * 64) levels (a, b)
    else
      let head := if a % block = 0 then [] else [(a, (a / block + 1) * block - 1)]
      let start := if a % block = 0 then a else (a / block + 1) * block
      let tail := if b % block = block - 1 then [] else [(b / block * block, b)]
      let upTo := if b % block = block - 1 then b + 1 else b / block * block
      let middle := if start < upTo then split (block * 64) levels (start, upTo - 1) else []
      head ++ middle ++ tail

/-- The sequences of ranges of bytes that make up a range of code points. -/
def sequences (r : Nat × Nat) : List (List ByteRange) :=
  (sameLength r.1 r.2).flatMap fun (a, b) =>
    (split 64 ((ofCode a).length - 1) (a, b)).map fun (a, b) => (ofCode a).zip (ofCode b)

end Bytes

namespace CharSet

def sequences (s : CharSet) : List (List ByteRange) :=
  s.ranges.toList.flatMap Bytes.sequences

/-- The size of one state. -/
def stateCost : Nat := 32

/-- The states for the sequences backwards. Sequences share what begins alike. -/
def backwardStates (sequences : List (List ByteRange)) : Nat :=
  (sequences.foldl
    (fun (count, before) bytes =>
      let shared := ((before.zip bytes).takeWhile fun (x, y) => x = y).length
      (count + (bytes.length - shared), bytes))
    (0, ([] : List ByteRange))).1

/-- The states of an automaton without two alike: each by its ways out. State 0 is the end. -/
abbrev States := Std.HashMap (List (ByteRange × Nat)) Nat

/-- The state for sequences that share their first ranges with their neighbours only. -/
def addState : (depth : Nat) → States → List (List ByteRange) → Nat × States
  | 0, states, _ => (0, states)
  | depth + 1, states, sequences =>
    if sequences.all (·.isEmpty) then (0, states)
    else
      let groups := sequences.splitBy fun s t => s.head? == t.head?
      let (out, states) := groups.foldl
        (fun (out, states) group =>
          match group.head?.bind List.head? with
          | some bytes =>
            let (next, states) := addState depth states (group.map (List.drop 1))
            ((bytes, next) :: out, states)
          | Option.none => (out, states))
        (([] : List (ByteRange × Nat)), states)
      match states[out]? with
      | some state => (state, states)
      | Option.none => (states.size + 1, states.insert out (states.size + 1))

end CharSet

/-- The sizes of an automaton that runs forwards and of one that runs backwards. -/
structure Cost where
  forwards : Nat
  backwards : Nat
  deriving Repr

namespace Cost

def both (n : Nat) : Cost := ⟨n, n⟩

def add (a b : Cost) : Cost := ⟨a.forwards + b.forwards, a.backwards + b.backwards⟩

def times (n : Nat) (a : Cost) : Cost := ⟨n * a.forwards, n * a.backwards⟩

def state : Cost := both CharSet.stateCost

/-- A state with so many ways out. -/
def fork (ways : Nat) : Cost := both (CharSet.stateCost + 4 * ways)

/-- The cost of a character out of a set. -/
def ofSet (s : CharSet) : Cost :=
  match s.single? with
  | some c => both (CharSet.stateCost * (Bytes.ofCode c.toNat).length)
  | none =>
    if s.isEmpty then state
    else if s.ranges.all fun r => r.2 < 0x80 then
      both (2 * CharSet.stateCost + 8 * s.ranges.size)
    else
      let sequences := s.sequences
      let states := (CharSet.addState 5 ∅ sequences).2
      let ways := states.fold (fun n out _ => n + out.length) 0
      ⟨CharSet.stateCost * (states.size + 1) + 8 * ways,
        CharSet.stateCost * (2 + CharSet.backwardStates sequences) + 4 * sequences.length⟩

/-- A bound that is found without looking at the bytes: a range of characters has at most seven
sequences of four states for each length but one, and few ranges go over several lengths. -/
def boundOfSet (s : CharSet) : Cost :=
  both (1000 * (s.ranges.size + 30))

/-- The cost of a repetition of a body. -/
def ofRepetition (body : Cost) (takesNothing mayBeEmpty : Bool) (least : Nat) (most : Option Nat) :
    Cost :=
  let least := if takesNothing then min least 1 else least
  let most := if takesNothing then some (min (most.getD 1) 1) else most
  match most with
  | some 0 => state
  | some most =>
    if most = least then times most body
    else if least = 0 && most = 1 then add (fork 2) (add state body)
    else
      let required := if least = 0 then state else times least body
      add required (add state (times (most - least) (add (fork 2) body)))
  | none =>
    if 0 < least then add (times least body) (fork 2)
    else if mayBeEmpty then add body (add (times 2 (fork 2)) state)
    else add body (fork 2)

end Cost

namespace Pattern

mutual

/-- What a simple pattern costs when a character out of a set costs `atom`. -/
def cost (atom : CharSet → Cost) : Pattern → Cost
  | one set _ => atom set
  | sequence parts => if parts.isEmpty then .state else costOfAll atom parts
  | choice ways =>
    match setOfAny? ways with
    | some set => atom set
    | none => ((Cost.fork ways.length).add .state).add (costOfAll atom ways)
  | repetition p least most _ =>
    .ofRepetition (cost atom p) (takesNothing p) ((width p).least = 0) least most
  | group _ p => (cost atom p).add ⟨2 * CharSet.stateCost, 0⟩
  | _ => .state

def costOfAll (atom : CharSet → Cost) : List Pattern → Cost
  | [] => .both 0
  | p :: ps => (cost atom p).add (costOfAll atom ps)

/-- The set of a pattern that takes one character out of it. -/
def setOf? : Pattern → Option CharSet
  | one set _ => some set
  | sequence parts => setOfOnly? parts
  | choice ways => setOfAny? ways
  | _ => none

/-- The same for a list that should hold one pattern. -/
def setOfOnly? : List Pattern → Option CharSet
  | [p] => setOf? p
  | _ => none

/-- The same for the choice among patterns. -/
def setOfAny? : List Pattern → Option CharSet
  | [] => none
  | [p] => setOf? p
  | p :: ps => do
    let s ← setOf? p
    let t ← setOfAny? ps
    some (s.union t)

end

/-- The greatest size of an automaton: ten mebibytes. -/
def maxCost : Nat := 10485760

def isCheap (p : Pattern) : Bool :=
  let bound := cost Cost.boundOfSet p
  if max bound.forwards bound.backwards ≤ maxCost then true
  else
    let exact := cost Cost.ofSet p
    max exact.forwards exact.backwards ≤ maxCost

/-- The greatest count that a quantifier of a simple pattern may have. -/
def maxCount : Nat := 4294967295

mutual

/-- Whether the counts of all quantifiers are in order. -/
def countsFit : Pattern → Bool
  | repetition p least most _ =>
    least ≤ maxCount && most.all (fun m => least ≤ m && m ≤ maxCount) && countsFit p
  | sequence parts | choice parts => allCountsFit parts
  | group _ p => countsFit p
  | _ => true

def allCountsFit : List Pattern → Bool
  | [] => true
  | p :: ps => countsFit p && allCountsFit ps

end

/-! ## Nesting -/

/-- Where a part stands: by itself, among alternatives, in a sequence or under a quantifier. Where
a part would not stay together it is enclosed in parentheses. -/
abbrev Binding := Nat

mutual

/-- How deep the text of a simple pattern nests. -/
def nesting (binding : Binding) : Pattern → Nat
  | one _ depth => depth
  | anchor .lineStart | anchor .lineEnd => 1
  | sequence parts =>
    if parts.isEmpty then 0 else nestingOfAll 2 parts + (if 1 < binding then 2 else 1)
  | choice ways => nestingOfAll 1 ways + (if 0 < binding then 2 else 1)
  | repetition p _ _ _ => nesting 3 p + (if 2 < binding then 2 else 1)
  | group _ p => nesting 0 p + 1
  | _ => 0

def nestingOfAll (binding : Binding) : List Pattern → Nat
  | [] => 0
  | p :: ps => max (nesting binding p) (nestingOfAll binding ps)

end

/-- Simple patterns nest no deeper than this. -/
def maxNesting : Nat := 250

/-- Whether a simple pattern is accepted. -/
def isAcceptable (p : Pattern) : Bool :=
  countsFit p && nesting 0 p ≤ maxNesting && isCheap p

end Pattern

end ReactiveForm
