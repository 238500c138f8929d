import ReactiveForm.Pattern.Basic
import ReactiveForm.Pattern.Property

/-!
# Matching simple patterns

The places where a match of a pattern may end, in order of preference and each once. What has been
reached before need not be followed again, so the work is bounded by the length of the text for
each part of the pattern. Only patterns that are not hard have a meaning here.
-/

set_option autoImplicit false

namespace ReactiveForm

def isWordAt (text : Array Char) (place : Nat) : Bool :=
  text[place]?.any CharSet.word.contains

def isWordBefore (text : Array Char) (place : Nat) : Bool :=
  0 < place && isWordAt text (place - 1)

def Anchor.holds (text : Array Char) (place : Nat) : Anchor → Bool
  | textStart | searchStart => place = 0
  | textEnd => place = text.size
  | lineStart => place = 0 || text[place - 1]? == some '\n'
  | lineEnd => place = text.size || text[place]? == some '\n'
  | wordBoundary => isWordBefore text place != isWordAt text place
  | noWordBoundary => isWordBefore text place == isWordAt text place
  | wordStart => !isWordBefore text place && isWordAt text place
  | wordEnd => isWordBefore text place && !isWordAt text place

namespace Pattern

/-- The places without those that stand in the list before. -/
def distinct (bound : Nat) (places : List Nat) : List Nat :=
  match places with
  | [] => []
  | [n] => [n]
  | _ =>
    (places.foldl
      (fun (seen, kept) n =>
        if seen[n]? == some true then (seen, kept) else (seen.setIfInBounds n true, n :: kept))
      (Array.replicate (bound + 1) false, ([] : List Nat))).2.reverse

mutual

/-- Whether the pattern takes no character at all. -/
def takesNothing : Pattern → Bool
  | one _ _ => false
  | sequence parts | choice parts => allTakeNothing parts
  | repetition p _ most _ => most == some 0 || takesNothing p
  | group _ p | atomic p => takesNothing p
  | _ => true

def allTakeNothing : List Pattern → Bool
  | [] => true
  | p :: ps => takesNothing p && allTakeNothing ps

end

/-! ## Repetition -/

/-- So many rounds of a step. -/
def rounds (step : List Nat → List Nat) : (count : Nat) → List Nat → List Nat
  | 0, places => places
  | _, [] => []
  | n + 1, places => rounds step n (step places)

/-- How many further rounds each place has been left with so far. -/
abbrev Explored := Array Nat

/-- The places that further rounds of a step reach, after those in `found`, which is read
backwards. A round that takes no character ends the repetition. `rank` is one more than the number
of rounds left, and stays as it is when there is no limit. A place is followed again only with more
rounds left than before. -/
def explore (step : List Nat → List Nat) (greedy limited : Bool) :
    (fuel : Nat) → (rank : Nat) → Explored × List Nat → Nat → Explored × List Nat
  | 0, _, state, place => (state.1, place :: state.2)
  | fuel + 1, rank, (explored, found), place =>
    if rank ≤ explored.getD place 0 then (explored, found)
    else
      let explored := explored.setIfInBounds place rank
      if rank ≤ 1 then (explored, place :: found)
      else
        let found := if greedy then found else place :: found
        let rest := if limited then rank - 1 else rank
        let (explored, found) := (step [place]).foldl
          (fun (explored, found) next =>
            if next = place then (explored, place :: found)
            else explore step greedy limited fuel rest (explored, found) next)
          (explored, found)
        (explored, if greedy then place :: found else found)

/-- The places reached from the given ones by at most so many further rounds. -/
def further (step : List Nat → List Nat) (greedy : Bool) (bound : Nat) (most : Option Nat)
    (places : List Nat) : List Nat :=
  let rank := match most with
    | some n => n + 1
    | none => 2
  let (_, found) := places.foldl (explore step greedy most.isSome (bound + 2) rank)
    (Array.replicate (bound + 1) 0, [])
  distinct bound found.reverse

/-! ## Patterns -/

mutual

/-- Where matches of the pattern that start in one of the places end. -/
def ends (text : Array Char) : Pattern → List Nat → List Nat
  | one set _, places =>
    places.filterMap fun n => if text[n]?.any set.contains then some (n + 1) else none
  | anchor a, places => places.filter fun n => a.holds text n
  | sequence parts, places => endsOfAll text parts places
  | choice ways, places =>
    distinct text.size (places.flatMap fun n => endsOfAny text ways n)
  | repetition p least most greedy, places =>
    let count := if takesNothing p then min least 1 else least
    further (ends text p) greedy text.size (most.map (· - least))
      (rounds (ends text p) count places)
  | group _ p, places => ends text p places
  | _, _ => []

def endsOfAll (text : Array Char) : List Pattern → List Nat → List Nat
  | [], places => places
  | p :: ps, places =>
    match ends text p places with
    | [] => []
    | next => endsOfAll text ps next

def endsOfAny (text : Array Char) : List Pattern → Nat → List Nat
  | [], _ => []
  | p :: ps, place => ends text p [place] ++ endsOfAny text ps place

end

/-- The end of the preferred match from a place. -/
def firstEnd? (text : Array Char) (p : Pattern) (place : Nat) : Option Nat :=
  (ends text p [place]).head?

/-- Whether a simple pattern matches somewhere in the text. -/
def occursSimply (p : Pattern) (text : Array Char) : Bool :=
  !(ends text p (List.range (text.size + 1))).isEmpty

end Pattern

end ReactiveForm
