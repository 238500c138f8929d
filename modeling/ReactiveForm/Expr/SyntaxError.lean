import ReactiveForm.Text.Blank
import ReactiveForm.Text.Letter

/-!
# Syntax errors

Where a text goes wrong, and what stands there.
-/

set_option autoImplicit false

namespace ReactiveForm

/-- The place of a syntax error: an offset in bytes, a line and a column in characters, both
counted from one, and the piece of text found there. -/
structure SyntaxError where
  position : Nat
  line : Nat
  column : Nat
  found : String
  deriving Repr, DecidableEq

namespace SyntaxError

/-- The code of syntax errors. -/
def code : String := "XPST0003"

def isWordStart (c : Char) : Bool :=
  Text.isAlphanumeric c || c = '_'

def isWordChar (c : Char) : Bool :=
  isWordStart c || c = '-' || c = '.' || c = ':'

/-- A quoted text up to its closing mark, or to the end where there is none. -/
def quotation (mark : Char) (rest : List Char) : List Char :=
  mark :: rest.takeWhile (· != mark) ++ (rest.dropWhile (· != mark)).take 1

/-- The word, the quotation or the single character in front of a text. -/
def describe (rest : List Char) : String :=
  match Text.trimStart rest with
  | [] => "end of input"
  | c :: cs =>
    let piece :=
      if isWordStart c then (c :: cs).takeWhile isWordChar
      else if c = '\'' || c = '"' then quotation c cs
      else [c]
    String.ofList ('\'' :: piece ++ ['\''])

def byteSize (cs : List Char) : Nat :=
  cs.foldr (fun c n => c.utf8Size + n) 0

/-- The error in a text whose last `left` characters cannot be read. -/
def locate (text : List Char) (left : Nat) : SyntaxError :=
  let before := text.take (text.length - left)
  { position := byteSize before
    line := before.count '\n' + 1
    column := (before.reverse.takeWhile (· != '\n')).length + 1
    found := describe (text.drop (text.length - left)) }

def message (e : SyntaxError) : String :=
  s!"unexpected token at line {e.line}, column {e.column} (found {e.found}) [{code}]"

end SyntaxError

end ReactiveForm
