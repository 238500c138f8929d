import ReactiveForm.Text.Scan

/-!
# Names in expressions

A name starts with a letter, an underscore or any character beyond ASCII, and goes on with those,
digits, hyphens and points. A qualified name is two of them around a colon.
-/

set_option autoImplicit false

namespace ReactiveForm.Expr

def isNameStart (c : Char) : Bool :=
  c.isAlpha || c = '_' || 0x80 ≤ c.toNat

def isNameChar (c : Char) : Bool :=
  isNameStart c || c.isDigit || c = '-' || c = '.'

/-- A name without a colon. -/
def simpleName : Scan (List Char)
  | [] => none
  | c :: rest =>
    if isNameStart c then some (c :: rest.takeWhile isNameChar, rest.dropWhile isNameChar)
    else none

/-- A simple name after a colon. -/
def nameAfterColon : Scan (List Char)
  | ':' :: rest => (simpleName rest).map fun (n, rest) => (':' :: n, rest)
  | _ => none

/-- A name with or without a colon. -/
def qualifiedName : Scan String := fun s => do
  let (first, rest) ← simpleName s
  match nameAfterColon rest with
  | some (second, rest) => some (String.ofList (first ++ second), rest)
  | none => some (String.ofList first, rest)

/-- A word that no further name character follows. -/
def keyword (w : String) : Scan Unit := fun s =>
  if s.takeWhile isNameChar = w.toList then some ((), s.dropWhile isNameChar) else none

end ReactiveForm.Expr
