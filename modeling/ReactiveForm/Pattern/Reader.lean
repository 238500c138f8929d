import ReactiveForm.Pattern.Match
import ReactiveForm.Pattern.Source

/-!
# Reading patterns

The text form of patterns: the usual operators, classes in brackets, escapes, groups with and
without names, flags in parentheses, look-around, conditions and back references. A brace that
opens no quantifier stands for itself.
-/

set_option autoImplicit false

namespace ReactiveForm.Pattern

/-! ## Quantifiers -/

/-- The least and the greatest number of rounds between braces. -/
def braces : Part (Nat × Option Nat) := do
  expect "\x7b"
  filler
  let least ← match ← remaining with
    | ',' :: _ => pure 0
    | _ => decimal
  filler
  let most ← if ← accept "," then do
      filler
      match ← remaining with
      | c :: _ => if c.isDigit then some <$> decimal else pure none
      | [] => pure none
    else pure (some least)
  filler
  expect "\x7d"
  return (least, if most = some (numberLimit - 1) then none else most)

/-- A quantifier, if one stands in front. -/
def quantifier : Part (Option (Nat × Option Nat)) := do
  if ← accept "?" then return some (0, some 1)
  if ← accept "*" then return some (0, none)
  if ← accept "+" then return some (1, none)
  let s ← get
  match braces s with
  | some (bounds, after) => do
    set after
    return some bounds
  | none => return none

/-- A pattern with the quantifier that may follow it. -/
def quantified (p : Pattern) : Part Pattern := do
  filler
  match ← quantifier with
  | none => return p
  | some (least, most) =>
    if !p.isRepeatable then failure
    filler
    let lazy ← accept "?"
    let greedy := (!lazy) != (← get).flags.swapGreed
    let repeated := Pattern.repetition p least most greedy
    if ← accept "+" then return .atomic repeated else return repeated

/-! ## Atoms -/

/-- A character, in either case where case does not matter. -/
def literal (c : Char) : Part Pattern := do
  let anyCase := (← get).flags.anyCase
  return .one (foldWhen anyCase (.one c)) (if anyCase then 1 else 0)

/-- The end of the text, or before line ends that stand at the end. -/
def lastLineEnd : Pattern :=
  .ahead true (.sequence [.repetition (.one (.one '\n') 0) 0 none true, .anchor .textEnd])

/-- A boundary of words; what is to stand in braces after it is not known. -/
def boundary (a : Anchor) : Part Pattern := do
  if (← remaining).head? = some '\x7b' then failure else return .anchor a

/-- An escape outside of brackets. -/
def escape : Part Pattern := do
  expect "\\"
  match ← remaining with
  | [] => failure
  | c :: rest =>
    if c.isDigit then
      let number ← decimal
      modify fun s => { s with byNumber := true }
      referTo number
    else
      goOn rest
      match c with
      | 'k' =>
        if ← accept "'" then namedReference "'" true
        else
          expect "<"
          namedReference ">" true
      | 'A' => return .anchor .textStart
      | 'z' => return .anchor .textEnd
      | 'Z' => return lastLineEnd
      | 'b' => boundary .wordBoundary
      | 'B' => boundary .noWordBoundary
      | '<' => return .anchor .wordStart
      | '>' => return .anchor .wordEnd
      | 'G' => return .anchor .searchStart
      | 'K' => return .beginHere
      | 'O' => return .one .all 1
      | c =>
        let anyCase := (← get).flags.anyCase
        match ← commonEscape c with
        | .char d => literal d
        | .set s => return .one s (if anyCase then 1 else 0)
        | .bracket text =>
          match readClass? false text.length (text.toList.map .plain) with
          | some (part, _) => return .one part.set part.depth
          | none => failure

/-! ## Groups -/

/-- One flag letter switched on or off. -/
def Flags.switch (flags : Flags) (letter : Char) (on : Bool) : Option Flags :=
  match letter with
  | 'i' => some { flags with anyCase := on }
  | 'm' => some { flags with multiLine := on }
  | 's' => some { flags with dotAll := on }
  | 'U' => some { flags with swapGreed := on }
  | 'x' => some { flags with spaced := on }
  | 'u' => if on then some flags else none
  | _ => none

/-- Switches the flags in front; those after a minus sign are switched off. Each is in force as
soon as it is read. What remains begins with a colon or a closing parenthesis, before which a flag
or two other characters must have stood. -/
def switchFlags (start : Nat) : (fuel : Nat) → (on : Bool) → Part Unit
  | 0, _ => failure
  | fuel + 1, on => do
    filler
    let s ← get
    match s.rest with
    | [] => failure
    | c :: rest =>
      let taken := start - s.rest.length
      if c = ')' then
        if taken = 0 || (!on && taken = 1) then failure
      else if c = ':' then
        if !on && taken = 1 then failure
      else if c = '-' then
        if !on then failure
        goOn rest
        switchFlags start fuel false
      else
        match s.flags.switch c on with
        | some flags =>
          set { s with rest, flags }
          switchFlags start fuel on
        | none => failure

/-- Flags for what follows, or for a part of it after a colon. -/
def flagGroup (inner : Part Pattern) : Part Pattern := do
  let s ← get
  switchFlags s.rest.length (s.rest.length + 1) true
  if ← accept ")" then return .empty
  expect ":"
  let p ← inner
  expect ")"
  modify fun t => { t with flags := s.flags }
  return p

/-- A numbered group, with its name if it has one. Flags switched inside stay in force after it. -/
def capture (inner : Part Pattern) (name : Option String) : Part Pattern := do
  let s ← get
  let number := s.groups
  set { s with
    names := match name with
      | some n => (n, number) :: s.names
      | none => s.names }
  let p ← inner
  expect ")"
  modify fun t => { t with widths := (number, p.width) :: t.widths }
  return .group number p

/-- Counts a group that begins. -/
def countGroup : Part Unit := modify fun s => { s with groups := s.groups + 1 }

/-- The body of a special group up to its closing parenthesis. -/
def closed (inner : Part Pattern) : Part Pattern := do
  let p ← inner
  expect ")"
  return p

/-- Whether nothing is to be matched. -/
def isNothing : Pattern → Bool
  | .sequence [] => true
  | _ => false

/-- A condition after its opening parentheses. Its test is whether a group has matched, or whether
a pattern matches. The first of the alternatives that follow is the branch for success. -/
def conditional (inner : Part Pattern) : Part Pattern := do
  let test ← match ← remaining with
    | [] => failure
    | c :: rest =>
      if c.isDigit then do
        let number ← decimal
        modify fun s => { s with byNumber := true }
        referTo number
      else if c = '\'' then do
        goOn rest
        namedReference "'" true
      else if c = '<' then do
        goOn rest
        namedReference ">" true
      else inner
  expect ")"
  let before := (← remaining).length
  let branches ← inner
  let length := (← remaining).length
  expect ")"
  let isGroup := match test with
    | .reference _ _ _ => true
    | _ => false
  if length = before && !isGroup then failure
  let test := match test with
    | .reference n _ _ => .matched n
    | p => p
  let (yes, no) := match branches with
    | .choice [yes, no] => (yes, no)
    | .choice (yes :: ways) => (yes, .choice ways)
    | p => (p, .empty)
  if isNothing yes && isNothing no then return test else return .condition test yes no

def groupOf (inner : Part Pattern) : Part Pattern := do
  expect "("
  filler
  if ← accept "?=" then return .ahead true (← closed inner)
  if ← accept "?!" then return .ahead false (← closed inner)
  if ← accept "?<=" then return .behind true (← closed inner)
  if ← accept "?<!" then return .behind false (← closed inner)
  if ← accept "?<" then
    countGroup
    return ← capture inner (some (← groupName ">"))
  if ← accept "?'" then
    countGroup
    return ← capture inner (some (← groupName "'"))
  if ← accept "?P<" then
    countGroup
    return ← capture inner (some (← groupName ">"))
  if ← accept "?P=" then return ← namedReference ")" false
  if ← accept "?>" then return .atomic (← closed inner)
  if ← accept "?(" then return ← conditional inner
  if ← accept "?" then return ← flagGroup inner
  countGroup
  capture inner none

/-- The smallest piece in front; nothing where an operator or a closing parenthesis stands. -/
def atom (inner : Part Pattern) : Part Pattern := do
  filler
  let s ← get
  match s.rest with
  | [] => return .empty
  | '.' :: rest =>
    goOn rest
    return if s.flags.dotAll then .one .all 1 else .one (CharSet.one '\n').complement 0
  | '^' :: rest =>
    goOn rest
    return .anchor (if s.flags.multiLine then .lineStart else .textStart)
  | '$' :: rest =>
    goOn rest
    return .anchor (if s.flags.multiLine then .lineEnd else .textEnd)
  | '(' :: _ => groupOf inner
  | '\\' :: _ => escape
  | '[' :: _ => bracketClass
  | c :: rest =>
    if c = '+' || c = '*' || c = '?' || c = '|' || c = ')' then return .empty
    else
      goOn rest
      literal c

/-! ## Whole patterns -/

/-- Pieces one after the other, until one takes nothing. -/
def pieces (inner : Part Pattern) : (fuel : Nat) → Part (List Pattern)
  | 0 => return []
  | fuel + 1 => do
    let before ← remaining
    if before.isEmpty then return []
    let p ← atom inner >>= quantified
    if (← remaining).length = before.length then return []
    let ps ← pieces inner fuel
    return if isNothing p then ps else p :: ps

def branch (inner : Part Pattern) : Part Pattern := do
  match ← pieces inner ((← remaining).length + 1) with
  | [p] => return p
  | ps => return .sequence ps

/-- The alternatives after the first one. -/
def alternatives (inner : Part Pattern) : (fuel : Nat) → Part (List Pattern)
  | 0 => return []
  | fuel + 1 => do
    filler
    if ← accept "|" then
      let p ← branch inner
      return p :: (← alternatives inner fuel)
    else return []

/-- A pattern with groups nested up to `depth` deep. A group that has a name may not be referred to
by number, which is noticed where there are no alternatives. -/
def body : (depth : Nat) → Part Pattern
  | 0 => failure
  | depth + 1 => do
    let first ← branch (body depth)
    match ← alternatives (body depth) ((← remaining).length + 1) with
    | [] =>
      let s ← get
      if s.byNumber && !s.names.isEmpty then failure
      return first
    | others => return .choice (first :: others)

/-- Groups nest less deep than this. -/
def maxDepth : Nat := 64

/-- The pattern that a text stands for, made ready, unless the text is malformed. -/
def read? (text : String) : Option Matcher :=
  match (body maxDepth).run { rest := text.toList } with
  | some (p, s) =>
    if s.rest.isEmpty && s.referred.all fun n => 1 ≤ n && n ≤ s.groups then
      matcher? s.referred p
    else none
  | none => none

end ReactiveForm.Pattern
