import ReactiveForm.Pattern.Plan

/-!
# Trying the ways of a plan

A search follows one way through a plan and keeps the others for later: when the way fails, the
last one kept is taken up with all that was known when it was left. The number of failures is
limited, and so is the number of ways kept.
-/

set_option autoImplicit false

namespace ReactiveForm

/-- What is still to be done on a way. -/
inductive Task where
  | follow (plan : Plan)
  /-- The head of a repetition after so many rounds. The last round that could be left out began
  at `last`. -/
  | again (body : Plan) (least : Nat) (most : Option Nat) (greedy mayBeEmpty : Bool)
      (rounds last : Nat)
  | openGroup (number : Nat)
  | closeGroup (number : Nat)
  /-- Return to a place. -/
  | returnTo (place : Nat)
  /-- Give up the ways kept since the last mark. -/
  | settle
  /-- Fail, and give up the ways above a height. -/
  | refuse (height : Nat)
  /-- Pass over one character. -/
  | skip
  /-- Try the plan at this place and at each later one. -/
  | seek (plan : Plan)

/-- Where a group began last and where it ended last, as far as it has. -/
structure Span where
  start : Option Nat := none
  stop : Option Nat := none
  deriving Repr, DecidableEq

/-- One way: a place in the text, the spans of the groups, the heights marked, and what remains to
be done. -/
structure Way where
  place : Nat
  spans : List (Nat × Span) := []
  marks : List Nat := []
  tasks : List Task

/-- A way with the ways kept for later, the last one first, their number, and how many have
failed. -/
structure Search where
  way : Way
  kept : List Way := []
  height : Nat := 0
  failures : Nat := 0

/-- Why a search was broken off. -/
inductive Overrun where
  | failures
  | height
  deriving Repr, DecidableEq

namespace Overrun

def message : Overrun → String
  | failures => "Max limit for backtracking count exceeded"
  | height => "Max stack size exceeded"

end Overrun

/-- The result of a search: broken off, or whether the plan matches. -/
abbrev Verdict := Except Overrun Bool

namespace Search

def maxFailures : Nat := 1000000

def maxHeight : Nat := 1000000

/-- A step leads on or ends the search. -/
abbrev Step := Except Verdict Search

def spanOf (w : Way) (n : Nat) : Span := (w.spans.lookup n).getD {}

def setSpan (w : Way) (n : Nat) (span : Span) : Way :=
  { w with spans := (n, span) :: w.spans.filter (·.1 != n) }

/-- Takes up the way that was kept last. -/
def fail (s : Search) : Step :=
  match s.kept with
  | [] => .error (.ok false)
  | way :: kept =>
    if s.failures < maxFailures then
      .ok { way, kept, height := s.height - 1, failures := s.failures + 1 }
    else .error (.error .failures)

/-- Goes on with `way` and keeps `other` for later. -/
def branch (s : Search) (way other : Way) : Step :=
  if s.height < maxHeight then
    .ok { s with way, kept := other :: s.kept, height := s.height + 1 }
  else .error (.error .height)

/-- Goes on with the way. -/
def goOn (s : Search) (way : Way) : Step := .ok { s with way }

/-- Gives up the ways above a height. -/
def cut (s : Search) (height : Nat) : Search :=
  { s with kept := s.kept.drop (s.height - height), height := min s.height height }

/-- The characters in front that have so many bytes in all. -/
def takeBytes : (count : Nat) → List Char → Option (List Char)
  | 0, _ => some []
  | _, [] => none
  | count, c :: rest =>
    if c.utf8Size ≤ count then (takeBytes (count - c.utf8Size) rest).map (c :: ·) else none

/-- Whether two texts differ in case at most. -/
def sameLetters (cs ds : List Char) : Bool :=
  cs.length = ds.length && (cs.zip ds).all fun (c, d) => CharSet.sameLetter c d

/-- The end of a copy of the characters from `start` to `stop` at a place. Where case does not
matter, the copy may lie anywhere in as many bytes as the characters have. -/
def copyEnd? (text : Array Char) (anyCase : Bool) (start stop place : Nat) : Option Nat :=
  let wanted := (text.extract start stop).toList
  let there := (text.extract place (place + (stop - start))).toList
  if wanted = there then some (place + (stop - start))
  else if !anyCase then none
  else
    let count := wanted.foldl (fun n c => n + c.utf8Size) 0
    match takeBytes count (text.extract place (place + count)).toList with
    | none => none
    | some there =>
      let holds := (List.range (there.length + 1)).any fun i =>
        sameLetters wanted ((there.drop i).take wanted.length)
      if holds then some (place + there.length) else none

/-- The first step of following a plan. `rest` is what remains to be done after it. -/
def enter (text : Array Char) (s : Search) (plan : Plan) (rest : List Task) : Step :=
  let w := s.way
  let next (tasks : List Task) : Step := s.goOn { w with tasks := tasks ++ rest }
  match plan with
  | .simple piece =>
    match piece.firstEnd? text w.place with
    | some stop => s.goOn { w with place := stop, tasks := rest }
    | none => s.fail
  | .anchor a => if a.holds text w.place then next [] else s.fail
  | .sequence parts => next (parts.map .follow)
  | .choice [] => s.fail
  | .choice [way] => next [.follow way]
  | .choice (way :: ways) =>
    s.branch { w with tasks := .follow way :: rest }
      { w with tasks := .follow (.choice ways) :: rest }
  | .repetition body least most greedy mayBeEmpty =>
    next [.again body least most greedy (mayBeEmpty && most.isNone) 0 0]
  | .atomic body =>
    s.goOn { w with marks := s.height :: w.marks, tasks := .follow body :: .settle :: rest }
  | .group n body => next [.openGroup n, .follow body, .closeGroup n]
  | .reference n anyCase =>
    match spanOf w n with
    | ⟨some start, some stop⟩ =>
      match copyEnd? text anyCase start stop w.place with
      | some stop => s.goOn { w with place := stop, tasks := rest }
      | none => s.fail
    | _ => s.fail
  | .matched n => if (spanOf w n).start.isSome then next [] else s.fail
  | .ahead true body => next [.follow body, .returnTo w.place]
  | .ahead false body =>
    s.branch { w with tasks := [.follow body, .refuse s.height] } { w with tasks := rest }
  | .behind true width body =>
    if width ≤ w.place then
      s.goOn { w with
        place := w.place - width
        tasks := .follow body :: .returnTo w.place :: rest }
    else s.fail
  | .behind false width body =>
    if width ≤ w.place then
      s.branch { w with
          place := w.place - width
          tasks := [.follow body, .refuse s.height] }
        { w with tasks := rest }
    else
      s.branch w { w with tasks := rest } >>= fail
  | .condition test yes no =>
    s.branch
      { w with
        marks := s.height :: w.marks
        tasks := .follow test :: .settle :: .follow yes :: rest }
      { w with marks := s.height :: w.marks, tasks := .follow no :: rest }

/-- One step of a search. -/
def step (text : Array Char) (s : Search) : Step :=
  let w := s.way
  match w.tasks with
  | [] => .error (.ok true)
  | .follow plan :: rest => enter text s plan rest
  | .again body least most greedy mayBeEmpty rounds last :: rest =>
    let leave : Way := { w with tasks := rest }
    let last' := if least ≤ rounds then w.place else last
    let go : Way := { w with
      tasks := .follow body :: .again body least most greedy mayBeEmpty (rounds + 1) last' :: rest }
    if most = some rounds then s.goOn leave
    else if mayBeEmpty && least < rounds && last = w.place then s.goOn leave
    else if rounds < least then s.goOn go
    else if greedy then s.branch go leave
    else s.branch leave go
  | .openGroup n :: rest =>
    let span := spanOf w n
    s.goOn { setSpan w n { span with start := some w.place } with tasks := rest }
  | .closeGroup n :: rest =>
    let span := spanOf w n
    s.goOn { setSpan w n { span with stop := some w.place } with tasks := rest }
  | .returnTo place :: rest => s.goOn { w with place, tasks := rest }
  | .settle :: rest =>
    match w.marks with
    | [] => s.goOn { w with tasks := rest }
    | height :: marks => (s.cut height).goOn { w with marks, tasks := rest }
  | .refuse height :: _ => (s.cut height).fail
  | .skip :: rest =>
    if w.place < text.size then s.goOn { w with place := w.place + 1, tasks := rest } else s.fail
  | .seek plan :: rest =>
    s.branch { w with tasks := .follow plan :: rest }
      { w with tasks := .skip :: .seek plan :: rest }

/-- The verdict of a search after at most `fuel` steps. -/
def run (text : Array Char) : (fuel : Nat) → Search → Verdict
  | 0, _ => .error .failures
  | fuel + 1, s =>
    match s.step text with
    | .ok next => run text fuel next
    | .error verdict => verdict

/-- More steps than a search could take within its limits in reasonable time. -/
def maxSteps : Nat := 1000000000000

end Search

end ReactiveForm
