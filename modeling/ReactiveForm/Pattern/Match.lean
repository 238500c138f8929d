import ReactiveForm.Pattern.Machine

/-!
# Whether a pattern occurs in a text

A simple pattern is looked for at once, any other by trying its ways.
-/

set_option autoImplicit false

namespace ReactiveForm

/-- A pattern made ready. -/
inductive Matcher where
  | simple (pattern : Pattern)
  /-- The plan of a pattern that can match at the start of the text only, or anywhere. -/
  | planned (plan : Plan) (atStart : Bool)
  deriving Repr

namespace Pattern

/-- The pattern with a look-ahead at its end taken as what follows. What is found would be the part
before, but whether something is found does not change. -/
def joinTail : Pattern → Pattern
  | sequence parts =>
    match parts.getLast? with
    | some (ahead true body) => sequence [group 0 (sequence parts.dropLast), body]
    | _ => sequence parts
  | p => p

/-- Whether the pattern begins with the start of the text. -/
def beginsAtStart : Pattern → Bool
  | anchor .textStart | sequence (anchor .textStart :: _) => true
  | _ => false

/-- Makes a pattern ready, unless it has no plan. The groups that are referred to are given. -/
def matcher? (referred : List Nat) (p : Pattern) : Option Matcher :=
  let p := joinTail p
  if p.isHard referred then
    (plan? referred false p).map fun plan => .planned plan (beginsAtStart p)
  else if isAcceptable p then some (.simple p)
  else none

end Pattern

/-- Whether the pattern matches somewhere in the text. -/
def Matcher.occursIn (m : Matcher) (text : String) : Verdict :=
  let text := text.toList.toArray
  match m with
  | .simple p => .ok (p.occursSimply text)
  | .planned plan atStart =>
    let task : Task := if atStart then .follow plan else .seek plan
    Search.run text Search.maxSteps { way := { place := 0, tasks := [task] } }

end ReactiveForm
