/-!
# Scanning text

A scanner takes characters off the front of a text and answers with what it made of them and the
rest, or refuses. A scanner that refuses has taken nothing, so alternatives start where the first
one did.
-/

set_option autoImplicit false

namespace ReactiveForm

universe u

/-- A scanner for values of one type. -/
abbrev Scan (α : Type u) := List Char → Option (α × List Char)

namespace Scan

variable {α β : Type u}

/-- The second scanner where the first one refuses. -/
def orElse (p q : Scan α) : Scan α := fun s => (p s).or (q s)

/-- The same text, with another value made of it. -/
def map (f : α → β) (p : Scan α) : Scan β := fun s => (p s).map fun (a, rest) => (f a, rest)

/-- One character. -/
def char (c : Char) : Scan Unit
  | [] => none
  | d :: rest => if d = c then some ((), rest) else none

/-- A fixed word. -/
def word : List Char → Scan Unit
  | [], s => some ((), s)
  | c :: cs, s => do
    let (_, rest) ← char c s
    word cs rest

/-- At most `n` times in a row, until the scanner refuses. -/
def upTo (p : Scan α) : Nat → List Char → List α × List Char
  | 0, s => ([], s)
  | n + 1, s =>
    match p s with
    | none => ([], s)
    | some (a, rest) => let (as, rest) := upTo p n rest; (a :: as, rest)

/-- As often as the scanner accepts; each round takes at least one character of the text. -/
def many (p : Scan α) : Scan (List α) := fun s => some (p.upTo s.length s)

/-- The characters of a class that stand in front. -/
def run (p : Char → Bool) : Scan (List Char) := fun s => some (s.takeWhile p, s.dropWhile p)

/-- The characters of a class that stand in front, at least one. -/
def run1 (p : Char → Bool) : Scan (List Char)
  | [] => none
  | c :: rest => if p c then some (c :: rest.takeWhile p, rest.dropWhile p) else none

/-- All the text, or nothing. -/
def all (p : Scan α) (s : List Char) : Option α :=
  match p s with
  | some (a, []) => some a
  | _ => none

end Scan

end ReactiveForm
