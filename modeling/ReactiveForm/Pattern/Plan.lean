import ReactiveForm.Pattern.Cost

/-!
# Plans for matching

A pattern is cut into simple pieces, each of which is matched at once and in its preferred way
only, and the hard parts between them, whose ways are tried one by one. Nothing is lost: a simple
piece either has one length, or nothing that follows it could ask for another of its ways.
-/

set_option autoImplicit false

namespace ReactiveForm

inductive Plan where
  /-- A simple piece, matched in its preferred way. -/
  | simple (piece : Pattern)
  | anchor (condition : Anchor)
  | sequence (parts : List Plan)
  | choice (ways : List Plan)
  | repetition (body : Plan) (least : Nat) (most : Option Nat) (greedy : Bool)
      (mayBeEmpty : Bool)
  | atomic (body : Plan)
  | group (number : Nat) (body : Plan)
  | reference (number : Nat) (anyCase : Bool)
  | matched (number : Nat)
  | ahead (wanted : Bool) (body : Plan)
  /-- The body has this width. -/
  | behind (wanted : Bool) (width : Nat) (body : Plan)
  | condition (test yes no : Plan)
  deriving Repr

namespace Pattern

/-- A simple piece made of patterns one after the other. -/
def piece? (parts : List Pattern) : Option Plan :=
  match parts with
  | [] => some (.sequence [])
  | [p] => if isAcceptable p then some (.simple p) else none
  | ps => if isAcceptable (.sequence ps) then some (.simple (.sequence ps)) else none

/-- Whether a part may be matched at once wherever it stands. -/
def isFixedPiece (referred : List Nat) (p : Pattern) : Bool :=
  p.width.fixed && !p.isHard referred

/-- How many parts at the start make up a simple piece. -/
def headLength (referred : List Nat) (parts : List Pattern) : Nat :=
  (parts.takeWhile (isFixedPiece referred)).length

/-- How many of the other parts make up a simple piece at the end. Where ways are tried one by one
each of these parts needs a fixed width. -/
def tailLength (referred : List Nat) (oneByOne : Bool) (parts : List Pattern) : Nat :=
  ((parts.drop (headLength referred parts)).reverse.takeWhile fun p =>
    if oneByOne then isFixedPiece referred p else !p.isHard referred).length

mutual

/-- The plan of a pattern, unless a simple piece is not acceptable or a look-behind has no width.
`oneByOne` tells that something follows which may ask for further ways. -/
def plan? (referred : List Nat) (oneByOne : Bool) (p : Pattern) : Option Plan :=
  if !oneByOne && !p.isHard referred then piece? [p]
  else
    match p with
    | one _ _ => piece? [p]
    | anchor a => some (.anchor a)
    | sequence parts => do
      let head ← piece? (parts.take (headLength referred parts))
      let stop := parts.length - tailLength referred oneByOne parts
      let middle ← planParts? referred (headLength referred parts) stop parts
      let tail ← piece? (parts.drop stop)
      some (.sequence (head :: middle ++ [tail]))
    | choice ways => (planWays? referred oneByOne ways).map .choice
    | repetition body least most greedy => do
      let optional := least = 0 && most = some 1
      let round ← plan? referred (oneByOne || !optional) body
      some (.repetition round least most greedy (body.width.least = 0))
    | atomic body => (plan? referred false body).map .atomic
    | group n body => (plan? referred oneByOne body).map (.group n)
    | reference n anyCase _ => some (.reference n anyCase)
    | matched n => some (.matched n)
    | ahead wanted body => (plan? referred false body).map (.ahead wanted)
    | behind wanted body =>
      if body.width.fixed then
        (plan? referred false body).map (.behind wanted body.width.least)
      else
        match body with
        | choice ways =>
          (planBehind? referred wanted ways).map (if wanted then .choice else .sequence)
        | _ => none
    | condition test yes no => do
      let test ← plan? referred oneByOne test
      let yes ← plan? referred oneByOne yes
      let no ← plan? referred oneByOne no
      some (.condition test yes no)
    | beginHere => some (.sequence [])

/-- The plans of the parts from the place `start` up to `stop`. -/
def planParts? (referred : List Nat) : (start stop : Nat) → List Pattern → Option (List Plan)
  | _, _, [] => some []
  | _, 0, _ => some []
  | start + 1, stop + 1, _ :: ps => planParts? referred start stop ps
  | 0, stop + 1, p :: ps => do
    let q ← plan? referred true p
    let qs ← planParts? referred 0 stop ps
    some (q :: qs)

def planWays? (referred : List Nat) (oneByOne : Bool) : List Pattern → Option (List Plan)
  | [] => some []
  | p :: ps => do
    let q ← plan? referred oneByOne p
    let qs ← planWays? referred oneByOne ps
    some (q :: qs)

/-- The plans of look-behinds with one alternative each. -/
def planBehind? (referred : List Nat) (wanted : Bool) : List Pattern → Option (List Plan)
  | [] => some []
  | p :: ps =>
    if p.width.fixed then do
      let q ← plan? referred false p
      let qs ← planBehind? referred wanted ps
      some (.behind wanted p.width.least q :: qs)
    else none

end

end Pattern

end ReactiveForm
