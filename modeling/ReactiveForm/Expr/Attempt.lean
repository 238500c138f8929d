import ReactiveForm.Text.Scan
import ReactiveForm.Number.Text

/-!
# Grammar rules

A rule reads a value off the front of a text. Alternatives are ordered and the first that fits is
taken. Besides its value a rule reports how far the reading came: the fewest characters that were
left when a named rule was refused. After a failure that is where the text goes wrong.
-/

set_option autoImplicit false

namespace ReactiveForm

/-- The outcome of a rule on a text. -/
structure Attempt (α : Type) where
  /-- The value and the rest of the text, unless the rule was refused. -/
  parsed : Option (α × List Char)
  /-- The fewest characters left where a named rule was refused. -/
  stuck : Option Nat := none

/-- A rule of the grammar for values of one type. -/
def Rule (α : Type) : Type := List Char → Attempt α

namespace Rule

variable {α β : Type}

/-- The place further into the text. -/
def further : Option Nat → Option Nat → Option Nat := Option.merge min

protected def pure (a : α) : Rule α := fun s => { parsed := some (a, s) }

protected def bind (p : Rule α) (f : α → Rule β) : Rule β := fun s =>
  match p s with
  | ⟨none, stuck⟩ => ⟨none, stuck⟩
  | ⟨some (a, rest), stuck⟩ =>
    let b := f a rest
    ⟨b.parsed, further stuck b.stuck⟩

instance : Monad Rule where
  pure := Rule.pure
  bind := Rule.bind

/-- The rule that fits nothing. -/
def refuse : Rule α := fun _ => { parsed := none }

/-- The second rule where the first one is refused. -/
protected def orElse (p q : Rule α) : Rule α := fun s =>
  match p s with
  | ⟨some r, stuck⟩ => ⟨some r, stuck⟩
  | ⟨none, stuck⟩ =>
    let b := q s
    ⟨b.parsed, further stuck b.stuck⟩

instance : OrElse (Rule α) where
  orElse p q := p.orElse (q ())

/-- A scanner on the text as it stands. -/
def exactly (p : Scan α) : Rule α := fun s => { parsed := p s }

/-- The text without the blanks in front. -/
def skipBlanks (s : List Char) : List Char :=
  s.dropWhile Number.isPadding

/-- A rule after any blanks; where it is refused there, that place is reported. -/
def named (p : Rule α) : Rule α := fun s =>
  let s := skipBlanks s
  match p s with
  | ⟨some r, stuck⟩ => ⟨some r, stuck⟩
  | ⟨none, stuck⟩ => ⟨none, further stuck (some s.length)⟩

/-- A token that is reported where it is missing. -/
def token (p : Scan α) : Rule α := named (exactly p)

/-- A punctuation mark after any blanks. -/
def mark (c : Char) : Rule Unit := fun s => exactly (Scan.char c) (skipBlanks s)

/-- The value of the rule, or none where it is refused. -/
def optional (p : Rule α) : Rule (Option α) := fun s =>
  match p s with
  | ⟨some (a, rest), stuck⟩ => ⟨some (some a, rest), stuck⟩
  | ⟨none, stuck⟩ => ⟨some (none, s), stuck⟩

/-- The rule up to `n` times in a row, until it is refused. -/
def upTo (p : Rule α) : Nat → Rule (List α)
  | 0 => Rule.pure []
  | n + 1 => fun s =>
    match p s with
    | ⟨none, stuck⟩ => ⟨some ([], s), stuck⟩
    | ⟨some (a, rest), stuck⟩ =>
      let b := upTo p n rest
      ⟨b.parsed.map fun (as, rest) => (a :: as, rest), further stuck b.stuck⟩

/-- The rule as often as it fits. Each time takes at least one character, so with one round more
than there are characters the last round is one that is refused. -/
def many (p : Rule α) : Rule (List α) := fun s => upTo p (s.length + 1) s

end Rule

end ReactiveForm
