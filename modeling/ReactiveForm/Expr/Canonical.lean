import ReactiveForm.Expr.Syntax
import ReactiveForm.Number.Text

/-!
# Canonical text of expressions

Every step is written with its axis, every operator application has parentheses, and the path to
the root alone stands in parentheses too.
-/

set_option autoImplicit false

namespace ReactiveForm

/-- A string between single quotes, or between double quotes when it holds a single one. -/
def Expr.quote (s : String) : List Char :=
  let mark := if s.toList.contains '\'' then '"' else '\''
  mark :: s.toList ++ [mark]

def NodeTest.canonical : NodeTest → List Char
  | any => ['*']
  | qualifier p => p.toList ++ [':', '*']
  | name n => n.toList
  | node => "node()".toList
  | text => "text()".toList
  | comment => "comment()".toList

/-- Pieces of text with a separator between them. -/
def joined (separator : List Char) : List (List Char) → List Char
  | [] => []
  | [piece] => piece
  | piece :: rest => piece ++ separator ++ joined separator rest

namespace Expr

mutual

def canonical : Expr → List Char
  | .text s => quote s
  | .number x => (Number.text x).toList
  | .variable name => '$' :: name.toList
  | .call f args => f.toList ++ '(' :: joined [',', ' '] (canonicalList args) ++ [')']
  | .binary op l r =>
    '(' :: canonical l ++ ' ' :: op.symbol.toList ++ ' ' :: canonical r ++ [')']
  | .negate e => '-' :: '(' :: canonical e ++ [')']
  | .union l r => '(' :: canonical l ++ [' ', '|', ' '] ++ canonical r ++ [')']
  | .filter base predicates => '(' :: canonical base ++ ')' :: canonicalPredicates predicates
  | .path start steps => canonicalStart start (joined ['/'] (canonicalSteps steps))

def canonicalList : List Expr → List (List Char)
  | [] => []
  | e :: es => canonical e :: canonicalList es

def canonicalPredicates : List Expr → List Char
  | [] => []
  | e :: es => '[' :: canonical e ++ ']' :: canonicalPredicates es

def canonicalStep : Step Expr → List Char
  | ⟨axis, test, predicates⟩ =>
    axis.name.toList ++ ':' :: ':' :: test.canonical ++ canonicalPredicates predicates

def canonicalSteps : List (Step Expr) → List (List Char)
  | [] => []
  | s :: ss => canonicalStep s :: canonicalSteps ss

/-- A path whose steps are written `steps`. -/
def canonicalStart : Start Expr → (steps : List Char) → List Char
  | .root, [] => ['(', '/', ')']
  | .root, c :: cs => '/' :: c :: cs
  | .context, steps => steps
  | .nodes base, [] => '(' :: canonical base ++ [')']
  | .nodes base, c :: cs => '(' :: canonical base ++ ')' :: '/' :: c :: cs

end

/-- The canonical text. -/
def toText (e : Expr) : String :=
  String.ofList e.canonical

end Expr

end ReactiveForm
