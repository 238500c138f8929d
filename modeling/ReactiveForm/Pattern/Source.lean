import ReactiveForm.Pattern.Basic
import ReactiveForm.Pattern.Class
import ReactiveForm.Pattern.Property
import ReactiveForm.Text.Letter

/-!
# The text of a pattern

The small pieces that a pattern is made of: comments and blanks, numbers, names and escapes.
-/

set_option autoImplicit false

namespace ReactiveForm.Pattern

/-- The flags in force. -/
structure Flags where
  anyCase : Bool := false
  multiLine : Bool := false
  dotAll : Bool := false
  swapGreed : Bool := false
  spaced : Bool := false

/-- What is left of the text of a pattern, and what has been read so far. -/
structure Source where
  rest : List Char
  flags : Flags := {}
  /-- The number of groups that have begun. -/
  groups : Nat := 0
  names : List (String × Nat) := []
  /-- The widths of the groups that have ended. -/
  widths : List (Nat × Width) := []
  /-- The groups that are referred to. -/
  referred : List Nat := []
  /-- Whether a group has been referred to by its number after a backslash. -/
  byNumber : Bool := false

/-- A reader of a part of a pattern; it fails where the pattern is malformed. -/
abbrev Part := StateT Source Option

def remaining : Part (List Char) := do return (← get).rest

def goOn (rest : List Char) : Part Unit := modify fun s => { s with rest }

/-- Takes the text if it stands in front. -/
def accept (text : String) : Part Bool := do
  let rest ← remaining
  if text.toList.isPrefixOf rest then
    goOn (rest.drop text.length)
    return true
  else return false

def expect (text : String) : Part Unit := do
  if ← accept text then return else failure

/-! ## Comments and blanks -/

/-- The text after a comment in parentheses. -/
def skipComment : (fuel : Nat) → List Char → Option (List Char)
  | _, [] => none
  | _, ')' :: rest => some rest
  | fuel + 1, '\\' :: rest => skipComment fuel (rest.drop 1)
  | fuel + 1, _ :: rest => skipComment fuel rest
  | 0, _ => none

/-- The text after comments, and after blanks where these are allowed. -/
def skipFiller (spaced : Bool) : (fuel : Nat) → List Char → Option (List Char)
  | 0, rest => some rest
  | fuel + 1, rest =>
    match rest with
    | '(' :: '?' :: '#' :: after => (skipComment after.length after).bind (skipFiller spaced fuel)
    | c :: after =>
      if spaced && c = '#' then skipFiller spaced fuel ((after.dropWhile (· != '\n')).drop 1)
      else if spaced && (c = ' ' || c = '\t' || c = '\r' || c = '\n') then
        skipFiller spaced fuel after
      else some rest
    | [] => some []

def filler : Part Unit := do
  let s ← get
  match skipFiller s.flags.spaced (s.rest.length + 1) s.rest with
  | some rest => goOn rest
  | none => failure

/-! ## Numbers -/

/-- The first number that is too great to be read. -/
def numberLimit : Nat := 18446744073709551616

/-- A number in decimal digits. -/
def decimal : Part Nat := do
  let rest ← remaining
  let digits := rest.takeWhile Char.isDigit
  if digits.isEmpty then failure
  let n := digits.foldl (fun n c => 10 * n + (c.toNat - 48)) 0
  if numberLimit ≤ n then failure
  goOn (rest.dropWhile Char.isDigit)
  return n

def hexDigit? (c : Char) : Option Nat :=
  if c.isDigit then some (c.toNat - 48)
  else if 'a' ≤ c && c ≤ 'f' then some (c.toNat - 87)
  else if 'A' ≤ c && c ≤ 'F' then some (c.toNat - 55)
  else none

/-- A character by its number: so many hexadecimal digits, or one to eight of them in braces. -/
def hexChar (count : Nat) : Part Char := do
  let rest ← remaining
  let digits ←
    if (rest.take count).length = count && (rest.take count).all (hexDigit? · |>.isSome) then do
      goOn (rest.drop count)
      pure (rest.take count)
    else do
      expect "\x7b"
      let inside ← remaining
      let digits := inside.takeWhile fun c => (hexDigit? c).isSome
      if digits.isEmpty || 8 < digits.length then failure
      goOn (inside.drop digits.length)
      expect "\x7d"
      pure digits
  let n := digits.foldl (fun n c => 16 * n + (hexDigit? c).getD 0) 0
  if n.isValidChar then return Char.ofNat n else failure

/-! ## Names -/

def isNamePart (c : Char) : Bool := Text.isAlphanumeric c || c = '_'

/-- The name of a group up to its closing mark. -/
def groupName (closing : String) : Part String := do
  let rest ← remaining
  let name := rest.takeWhile isNamePart
  if name.isEmpty then failure
  goOn (rest.drop name.length)
  expect closing
  return String.ofList name

/-- A reference to a group, which is made ready before it is known whether the group exists. -/
def referTo (number : Nat) : Part Pattern := do
  let s ← get
  set { s with referred := number :: s.referred }
  return .reference number s.flags.anyCase ((s.widths.lookup number).getD ⟨0, false⟩)

/-- The number of a distance from the group that began last. -/
def relativeGroup? (groups : Nat) (forwards : Bool) (distance : Nat) : Option Nat :=
  if forwards then some (groups + distance)
  else if distance = 0 then some groups
  else if distance ≤ groups + 1 then some (groups + 1 - distance)
  else none

/-- A reference by the name of a group, by its number, or where that is allowed by its distance,
up to the closing mark. -/
def namedReference (closing : String) (distances : Bool) : Part Pattern := do
  let s ← get
  let name := s.rest.takeWhile isNamePart
  goOn (s.rest.drop name.length)
  let number ← match ← remaining with
    | c :: rest =>
      if distances && name.isEmpty && (c = '+' || c = '-') then do
        goOn rest
        let distance ← decimal
        match relativeGroup? s.groups (c = '+') distance with
        | some n => pure n
        | none => failure
      else if name.isEmpty then failure
      else
        match s.names.lookup (String.ofList name) with
        | some n => pure n
        | none => do
          let t ← get
          goOn s.rest
          let n ← decimal
          if (← remaining) ≠ t.rest then failure
          pure n
    | [] => failure
  expect closing
  referTo number

/-- The set of a property: its name is one character, or a text in braces. -/
def propertySet (negated : Bool) : Part CharSet := do
  let rest ← remaining
  let name ← match rest with
    | '\x7b' :: rest => do
      let name := rest.takeWhile (· != '\x7d')
      if rest.length ≤ name.length then failure
      goOn (rest.drop (name.length + 1))
      pure (SetFormula.read? name)
    | c :: rest => do
      goOn rest
      pure (SetFormula.byName? (SetFormula.plainName [c]))
    | [] => failure
  match name with
  | some formula =>
    let set := foldWhen (← get).flags.anyCase formula.eval
    return if negated then set.complement else set
  | none => failure

/-! ## Escapes -/

/-- What an escape stands for. -/
inductive Escape where
  | char (c : Char)
  | set (s : CharSet)
  /-- A class written out. -/
  | bracket (text : String)

/-- The escape of `c` where it stands for a character or a set inside and outside of brackets
alike; its text has been read up to there. -/
def commonEscape (c : Char) : Part Escape := do
  match c with
  | 'd' => return .set .decimal
  | 'D' => return .set CharSet.decimal.complement
  | 'w' => return .set .word
  | 'W' => return .set CharSet.word.complement
  | 's' => return .set .blank
  | 'S' => return .set CharSet.blank.complement
  | 'h' => return .bracket "[0-9A-Fa-f]"
  | 'H' => return .bracket "[^0-9A-Fa-f]"
  | 'x' => return .char (← hexChar 2)
  | 'u' => return .char (← hexChar 4)
  | 'U' => return .char (← hexChar 8)
  | 'p' => return .set (← propertySet false)
  | 'P' => return .set (← propertySet true)
  | 'a' => return .char (Char.ofNat 7)
  | 'e' => return .char (Char.ofNat 27)
  | 'f' => return .char (Char.ofNat 12)
  | 'n' => return .char '\n'
  | 'r' => return .char '\r'
  | 't' => return .char '\t'
  | 'v' => return .char (Char.ofNat 11)
  | c => if c.isAlphanum then failure else return .char c

/-! ## Classes -/

/-- The symbols of an escape inside brackets. Letters of conditions stand for themselves there. -/
def classEscape : Part (List ClassSymbol) := do
  match ← remaining with
  | [] => failure
  | c :: rest =>
    goOn rest
    if c = 'b' then return [.guarded (Char.ofNat 8)]
    else if ['k', 'A', 'z', 'B', 'K', 'G'].contains c then return [.guarded c]
    else
      match ← commonEscape c with
      | .char d => return [.guarded d]
      | .set s => return [.set s]
      | .bracket text => return text.toList.map .plain

/-- The symbols up to the bracket that closes as many as are open. -/
def classSymbols : (fuel : Nat) → (nested : Nat) → Part (List ClassSymbol)
  | 0, _ => failure
  | fuel + 1, nested => do
    match ← remaining with
    | [] => failure
    | c :: rest =>
      goOn rest
      if c = '\\' then return (← classEscape) ++ (← classSymbols fuel nested)
      else if c = '[' then return .plain c :: (← classSymbols fuel (nested + 1))
      else if c = ']' then
        if nested ≤ 1 then return [.plain c]
        else return .plain c :: (← classSymbols fuel (nested - 1))
      else return .plain c :: (← classSymbols fuel nested)

/-- The symbols of a class from its opening bracket on. A closing bracket right at its start does
not close it. -/
def wholeClass : Part (List ClassSymbol) := do
  expect "["
  let negation := if ← accept "^" then [ClassSymbol.plain '^'] else []
  let bracket := if ← accept "]" then [ClassSymbol.plain ']'] else []
  let symbols ← classSymbols ((← remaining).length + 1) 1
  return .plain '[' :: negation ++ bracket ++ symbols

def bracketClass : Part Pattern := do
  let symbols ← wholeClass
  let anyCase := (← get).flags.anyCase
  match readClass? anyCase (2 * symbols.length + 2) symbols with
  | none => failure
  | some (part, rest) =>
    let depth := if anyCase then part.depth + 1 else part.depth
    match leftOver? rest with
    | none => failure
    | some [] => return .one part.set depth
    | some sets =>
      return .sequence (.one part.set depth :: sets.map fun s => .one (foldWhen anyCase s) 0)

end ReactiveForm.Pattern
