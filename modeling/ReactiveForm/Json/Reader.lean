import ReactiveForm.Json.Basic
import ReactiveForm.Text.Scan

/-!
# Reading JSON

The grammar of JSON texts. A string holds no unescaped control character. A value is unreadable
where arrays and objects nest more than `maxDepth` deep, and where an escaped surrogate does not
stand in a pair.
-/

set_option autoImplicit false

namespace ReactiveForm.Json

/-- Arrays and objects inside one another beyond this depth are unreadable. -/
def maxDepth : Nat := 127

def isBlank (c : Char) : Bool :=
  c = ' ' || c = '\n' || c = '\t' || c = '\r'

/-- A character after any blanks. -/
def symbol (c : Char) : Scan Unit := fun s => Scan.char c (s.dropWhile isBlank)

/-! ## Numbers -/

/-- Digits without a leading zero, or the zero alone. -/
def wholePart : Scan (List Char)
  | '0' :: rest => some (['0'], rest)
  | s => Scan.run1 Char.isDigit s

def fractionPart : Scan (List Char)
  | '.' :: rest => (Scan.run1 Char.isDigit rest).map fun (ds, rest) => ('.' :: ds, rest)
  | s => some ([], s)

def exponentSign : List Char → List Char × List Char
  | '+' :: rest => (['+'], rest)
  | '-' :: rest => (['-'], rest)
  | s => ([], s)

def exponentPart : Scan (List Char)
  | [] => some ([], [])
  | c :: rest =>
    if c = 'e' || c = 'E' then
      let (sign, rest) := exponentSign rest
      (Scan.run1 Char.isDigit rest).map fun (ds, rest) => (c :: sign ++ ds, rest)
    else some ([], c :: rest)

def minusSign : List Char → List Char × List Char
  | '-' :: rest => (['-'], rest)
  | s => ([], s)

def numberLiteral : Scan Json := fun s => do
  let (sign, s) := minusSign s
  let (whole, s) ← wholePart s
  let (fraction, s) ← fractionPart s
  let (exponent, s) ← exponentPart s
  some (.number (String.ofList (sign ++ whole ++ fraction ++ exponent)), s)

/-! ## Strings -/

def hexValue (c : Char) : Option Nat :=
  if c.isDigit then some (c.toNat - '0'.toNat)
  else if 'a' ≤ c && c ≤ 'f' then some (c.toNat - 'a'.toNat + 10)
  else if 'A' ≤ c && c ≤ 'F' then some (c.toNat - 'A'.toNat + 10)
  else none

/-- Four hexadecimal digits. -/
def codeUnit : Scan Nat
  | a :: b :: c :: d :: rest => do
    let a ← hexValue a
    let b ← hexValue b
    let c ← hexValue c
    let d ← hexValue d
    some (((a * 16 + b) * 16 + c) * 16 + d, rest)
  | _ => none

/-- The second half of a pair of surrogates. -/
def lowHalf : Scan Nat := fun s => do
  let (_, s) ← Scan.word ['\\', 'u'] s
  let (u, s) ← codeUnit s
  if 0xDC00 ≤ u && u < 0xE000 then some (u, s) else none

/-- The character of a code unit, or of a pair of surrogates; none for a surrogate by itself. -/
def codePoint : Scan (Option Char) := fun s => do
  let (u, s) ← codeUnit s
  if u < 0xD800 || 0xE000 ≤ u then some (some (Char.ofNat u), s)
  else if 0xDC00 ≤ u then some (none, s)
  else
    match lowHalf s with
    | some (l, s) => some (some (Char.ofNat (0x10000 + (u - 0xD800) * 0x400 + (l - 0xDC00))), s)
    | none => some (none, s)

/-- The character after a backslash. -/
def escaped : Scan (Option Char)
  | '"' :: rest => some (some '"', rest)
  | '\\' :: rest => some (some '\\', rest)
  | '/' :: rest => some (some '/', rest)
  | 'b' :: rest => some (some (Char.ofNat 8), rest)
  | 'f' :: rest => some (some (Char.ofNat 12), rest)
  | 'n' :: rest => some (some '\n', rest)
  | 'r' :: rest => some (some '\r', rest)
  | 't' :: rest => some (some '\t', rest)
  | 'u' :: rest => codePoint rest
  | _ => none

/-- One character of a string, written as it is or escaped. -/
def stringChar : Scan (Option Char)
  | [] => none
  | c :: rest =>
    if c = '\\' then escaped rest
    else if c = '"' || c.toNat < 32 then none
    else some (some c, rest)

/-- A string, or none where a surrogate stands by itself. -/
def stringLiteral : Scan (Option String) := fun s => do
  let (_, s) ← symbol '"' s
  let (cs, s) ← Scan.many stringChar s
  let (_, s) ← Scan.char '"' s
  some ((cs.mapM id).map String.ofList, s)

def ofText : Option String → Json
  | some s => .string s
  | none => .unreadable

/-! ## Values -/

/-- The constants, numbers and strings. -/
def scalar : Scan Json := fun s =>
  let s := s.dropWhile isBlank
  match s with
  | 'n' :: _ => (Scan.word "null".toList s).map fun (_, s) => (.null, s)
  | 't' :: _ => (Scan.word "true".toList s).map fun (_, s) => (.bool true, s)
  | 'f' :: _ => (Scan.word "false".toList s).map fun (_, s) => (.bool false, s)
  | '"' :: _ => (stringLiteral s).map fun (t, s) => (ofText t, s)
  | _ => numberLiteral s

/-- Items between brackets, separated by commas. -/
def listOf {α : Type} (opening closing : Char) (item : Scan α) : Scan (List α) := fun s => do
  let (_, s) ← symbol opening s
  match symbol closing s with
  | some (_, s) => some ([], s)
  | none =>
    let (first, s) ← item s
    let further : Scan α := fun s => (symbol ',' s).bind fun (_, s) => item s
    let (rest, s) ← Scan.many further s
    let (_, s) ← symbol closing s
    some (first :: rest, s)

/-- A name, a colon and a value. -/
def memberOf (value : Scan Json) : Scan (Option String × Json) := fun s => do
  let (name, s) ← stringLiteral s
  let (_, s) ← symbol ':' s
  let (v, s) ← value s
  some ((name, v), s)

/-- An object whose names are all readable. -/
def ofMembers (members : List (Option String × Json)) : Json :=
  match members.mapM fun (name, v) => name.map fun n => (n, v) with
  | some ms => .object ms
  | none => .unreadable

/-- A value in which arrays and objects may nest `depth` deep to be readable, and `fuel` deep at
all. -/
def value : (fuel depth : Nat) → Scan Json
  | 0, _ => scalar
  | fuel + 1, depth => fun s =>
    let keep (v : Json) : Json := if depth = 0 then .unreadable else v
    match s.dropWhile isBlank with
    | '[' :: _ =>
      (listOf '[' ']' (value fuel (depth - 1)) s).map fun (vs, s) => (keep (.array vs), s)
    | '\x7b' :: _ =>
      (listOf '\x7b' '\x7d' (memberOf (value fuel (depth - 1))) s).map fun (ms, s) =>
        (keep (ofMembers ms), s)
    | _ => scalar s

/-- The value that a whole text stands for. -/
def read? (text : String) : Option Json := do
  let s := text.toList
  let (v, rest) ← value s.length maxDepth s
  if (rest.dropWhile isBlank).isEmpty then some v else none

end ReactiveForm.Json
