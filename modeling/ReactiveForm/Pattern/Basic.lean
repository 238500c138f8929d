import ReactiveForm.Pattern.CharSet

/-!
# Patterns

Regular expressions with back references, look-around, atomic groups and conditions.
-/

set_option autoImplicit false

namespace ReactiveForm

/-- A condition on a place between two characters. -/
inductive Anchor where
  | textStart
  | textEnd
  | lineStart
  | lineEnd
  | wordBoundary
  | noWordBoundary
  | wordStart
  | wordEnd
  /-- Where the search began. -/
  | searchStart
  deriving Repr, DecidableEq

/-- How many characters a pattern takes: no fewer than `least`, and no other number if it is
fixed. -/
structure Width where
  least : Nat
  fixed : Bool
  deriving Repr, DecidableEq

namespace Width

def exactly (n : Nat) : Width := ⟨n, true⟩

def add (a b : Width) : Width := ⟨a.least + b.least, a.fixed && b.fixed⟩

/-- The width of either of two patterns. -/
def either (a b : Width) : Width :=
  ⟨min a.least b.least, a.fixed && b.fixed && a.least = b.least⟩

/-- The width of so many rounds. -/
def times (a : Width) (least : Nat) (most : Option Nat) : Width :=
  ⟨a.least * least, a.fixed && most = some least⟩

end Width

inductive Pattern where
  /-- One character of a set. The way in which the set is written nests `depth` deep. -/
  | one (set : CharSet) (depth : Nat)
  | anchor (condition : Anchor)
  | sequence (parts : List Pattern)
  | choice (ways : List Pattern)
  /-- Between `least` and `most` times in a row; as often as possible when `greedy` holds. -/
  | repetition (body : Pattern) (least : Nat) (most : Option Nat) (greedy : Bool)
  /-- The body matched in its first way only. -/
  | atomic (body : Pattern)
  | group (number : Nat) (body : Pattern)
  /-- The text that a group has matched, and the width of that group as far as it is known. -/
  | reference (number : Nat) (anyCase : Bool) (width : Width)
  /-- Whether a group has matched. -/
  | matched (number : Nat)
  /-- Whether the body matches from here on, or does not. -/
  | ahead (wanted : Bool) (body : Pattern)
  /-- Whether the body matches up to here, or does not. -/
  | behind (wanted : Bool) (body : Pattern)
  /-- The first branch after the test has matched, else the second one. -/
  | condition (test yes no : Pattern)
  /-- The place where the text found is to begin; it does not bear on whether one is found. -/
  | beginHere
  deriving Repr

namespace Pattern

def empty : Pattern := sequence []

mutual

def width : Pattern → Width
  | one _ _ => .exactly 1
  | anchor _ | matched _ | ahead _ _ | behind _ _ | beginHere => .exactly 0
  | sequence parts => widthOfAll parts
  | choice ways => widthOfAny ways
  | repetition p least most _ => (width p).times least most
  | atomic p | group _ p => width p
  | reference _ _ w => w
  | condition test yes no =>
    let t := width test
    let y := width yes
    let n := width no
    ⟨t.least + min y.least n.least,
      t.fixed && y.fixed && n.fixed && t.least + y.least = n.least⟩

/-- The width of patterns one after the other. -/
def widthOfAll : List Pattern → Width
  | [] => .exactly 0
  | p :: ps => (width p).add (widthOfAll ps)

/-- The width of any one of the patterns. -/
def widthOfAny : List Pattern → Width
  | [] => .exactly 0
  | [p] => width p
  | p :: ps => (width p).either (widthOfAny ps)

end

/-- Conditions that need more than a look at the next character. -/
def isHardAnchor : Anchor → Bool
  | .wordBoundary | .noWordBoundary | .wordStart | .wordEnd | .searchStart => true
  | _ => false

mutual

/-- Whether the ways to match depend on more than the place where the pattern starts: on what a
group has matched, on what stands before, or on a first way only. Groups that are referred to are
in the list. -/
def isHard (referred : List Nat) : Pattern → Bool
  | one _ _ => false
  | anchor a => isHardAnchor a
  | sequence parts => anyHard referred parts
  | choice ways => anyHard referred ways
  | repetition p _ _ _ => isHard referred p
  | group n p => referred.contains n || isHard referred p
  | _ => true

def anyHard (referred : List Nat) : List Pattern → Bool
  | [] => false
  | p :: ps => isHard referred p || anyHard referred ps

end

/-- Whether a quantifier may follow. -/
def isRepeatable : Pattern → Bool
  | sequence [] | anchor _ | ahead _ _ | behind _ _ | matched _ | beginHere => false
  | _ => true

end Pattern

end ReactiveForm
