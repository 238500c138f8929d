import ReactiveForm.Document.Basic
import ReactiveForm.Expr.SyntaxError
import ReactiveForm.Expr.Syntax
import ReactiveForm.Number.Text

/-!
# Values

The four types of values and the conversions between them. Values without nodes are atoms.
-/

set_option autoImplicit false

namespace ReactiveForm

inductive ValueType where
  | string
  | number
  | boolean
  | nodeSet
  deriving Repr, DecidableEq

namespace ValueType

def tag : ValueType → String
  | string => "string"
  | number => "number"
  | boolean => "boolean"
  | nodeSet => "node-set"

def ofTag? (s : String) : Option ValueType :=
  [string, number, boolean, nodeSet].find? (·.tag == s)

end ValueType

/-- Why an expression has no value. -/
inductive EvalError where
  | badSyntax (error : SyntaxError)
  | unknownVariable (name : String)
  | unknownFunction (name : String)
  | wrongArity (name : String) (count : Nat)
  | notNodeSet (type : ValueType)
  /-- A function gave up. -/
  | failed (reason : String)
  | badPattern (pattern : String)
  deriving Repr, DecidableEq

namespace EvalError

def code : EvalError → String
  | badSyntax _ => SyntaxError.code
  | unknownVariable _ => "XPST0008"
  | unknownFunction _ => "XPST0017"
  | wrongArity _ _ => "XPST0017"
  | notNodeSet _ => "XPTY0004"
  | failed _ => "FOER0000"
  | badPattern _ => "FORX0002"

/-- A number of arguments in words. -/
def countText : Nat → String
  | 0 => "no arguments"
  | 1 => "one argument"
  | 2 => "two arguments"
  | 3 => "three arguments"
  | n => s!"{n} arguments"

/-- What went wrong, without the code. -/
def reason : EvalError → String
  | badSyntax e => e.message
  | unknownVariable name => s!"variable ${name} is not defined"
  | unknownFunction name => s!"function {name}() is not defined"
  | wrongArity name count => s!"function {name}() cannot be called with {countText count}"
  | notNodeSet type => s!"cannot convert {type.tag} to a node-set"
  | failed reason => reason
  | badPattern pattern => s!"invalid pattern '{pattern}'"

def message (e : EvalError) : String :=
  s!"{e.reason} ({e.code})"

end EvalError

/-- A value that refers to no node. -/
inductive Atom where
  | string (value : String)
  | number (value : Float)
  | boolean (value : Bool)
  deriving Repr, DecidableEq

namespace Atom

def toBool : Atom → Bool
  | string s => !s.isEmpty
  | number x => Number.isTrue x
  | boolean b => b

def toNumber : Atom → Float
  | string s => Number.read s
  | number x => x
  | boolean b => if b then 1.0 else 0.0

def toText : Atom → String
  | string s => s
  | number x => Number.text x
  | boolean b => if b then "true" else "false"

end Atom

/-- A value; the nodes of a node-set stand in document order, each once. -/
inductive Value (N : Type) where
  | atom (value : Atom)
  | nodes (list : List N)
  deriving Repr, DecidableEq

namespace Value

variable {N : Type}

abbrev string (s : String) : Value N := .atom (.string s)

abbrev number (x : Float) : Value N := .atom (.number x)

abbrev boolean (b : Bool) : Value N := .atom (.boolean b)

def type : Value N → ValueType
  | atom (.string _) => .string
  | atom (.number _) => .number
  | atom (.boolean _) => .boolean
  | nodes _ => .nodeSet

def toBool : Value N → Bool
  | atom a => a.toBool
  | nodes xs => !xs.isEmpty

/-- A node-set stands for the text of its first node. -/
def toText (t : HostTree N) : Value N → String
  | atom a => a.toText
  | nodes [] => ""
  | nodes (x :: _) => t.stringValue x

def toNumber (t : HostTree N) : Value N → Float
  | atom a => a.toNumber
  | nodes xs => Number.read ((nodes xs).toText t)

/-- The value without its nodes. -/
def toAtom (t : HostTree N) : Value N → Atom
  | atom a => a
  | nodes xs => .string ((nodes xs).toText t)

def toNodes : Value N → Except EvalError (List N)
  | nodes xs => .ok xs
  | atom a => .error (.notNodeSet (atom a : Value N).type)

/-- The value as one of the given type; only node-sets convert to node-sets. -/
def coerce (t : HostTree N) (v : Value N) : ValueType → Except EvalError (Value N)
  | .string => .ok (.string (v.toText t))
  | .number => .ok (.number (v.toNumber t))
  | .boolean => .ok (.boolean v.toBool)
  | .nodeSet => v.toNodes.map .nodes

end Value

end ReactiveForm
