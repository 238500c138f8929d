import ReactiveForm.Moment
import ReactiveForm.Reads
import ReactiveForm.Value

/-!
# Functions

Functions that expressions call. A function declares how many arguments it takes and of which
types; arguments are converted before it runs. What it reads of the tree goes into the log of the
evaluation, if one is kept.
-/

set_option autoImplicit false

namespace ReactiveForm

/-- The reads of a running evaluation, or nothing where nobody asks for them. -/
abbrev Log (N : Type) := Option (Reads N)

/-- A computation that may fail and that reads nodes. A failure keeps what has been read. -/
abbrev Reading (N α : Type) := ExceptT EvalError (StateM (Log N)) α

namespace Reading

variable {N α : Type} [DecidableEq N]

/-- Enters nodes into the log. -/
def note (xs : List N) : Reading N Unit :=
  modify (Option.map (·.recordAll xs))

def fail (e : EvalError) : Reading N α :=
  throw e

def ofExcept : Except EvalError α → Reading N α
  | .ok a => pure a
  | .error e => throw e

end Reading

section

variable (N : Type) [DecidableEq N] [Ord N]

/-- What a function sees of the evaluation that calls it. -/
structure Call where
  document : Document N
  node : N
  position : Nat
  size : Nat
  /-- The node for which the whole expression is evaluated. -/
  current : N
  now : Moment

/-- What a function does with its converted arguments. -/
abbrev Body := Call N → List (Value N) → Reading N (Value N)

/-- A function with its declaration. -/
structure Function where
  minArguments : Nat
  /-- No bound where more arguments are always welcome. -/
  maxArguments : Option Nat
  /-- The types of the parameters, where none means any type. The last one repeats. -/
  parameters : List (Option ValueType)
  result : Option ValueType
  builtin : Bool
  body : Body N

end

namespace Call

variable {N : Type} [DecidableEq N] [Ord N] (c : Call N)

/-- The text of a node; the node counts as read. -/
def textOf (x : N) : Reading N String := do
  Reading.note [x]
  pure (c.document.stringValue x)

def valueText : Value N → Reading N String
  | .nodes [] => pure ""
  | .nodes (x :: _) => c.textOf x
  | .atom a => pure a.toText

def valueNumber (v : Value N) : Reading N Float := do
  match v with
  | .atom a => pure a.toNumber
  | .nodes _ => pure (Number.read (← c.valueText v))

/-- An argument as a value of the declared type. -/
def convert (v : Value N) : Option ValueType → Reading N (Value N)
  | none => pure v
  | some .string => do pure (.string (← c.valueText v))
  | some .number => do pure (.number (← c.valueNumber v))
  | some type => Reading.ofExcept (v.coerce c.document.toHostTree type)

/-- The arguments as values of the declared types, from left to right. -/
def convertAll :
    (parameters : List (Option ValueType)) → List (Value N) → Reading N (List (Value N))
  | _, [] => pure []
  | parameters, v :: vs => do
    let first ← c.convert v parameters.head?.join
    let further := if parameters.length ≤ 1 then parameters else parameters.tail
    let rest ← convertAll further vs
    pure (first :: rest)

/-- The texts of all nodes of a node-set, or the text of another value. -/
def texts : Value N → Reading N (List String)
  | .nodes xs => xs.mapM c.textOf
  | .atom a => pure [a.toText]

/-- The texts of several values, one after the other. -/
def allTexts : List (Value N) → Reading N (List String)
  | [] => pure []
  | v :: vs => do
    let first ← c.texts v
    let rest ← allTexts vs
    pure (first ++ rest)

/-- The numbers of all nodes of a node-set, or the number of another value. -/
def numbers : Value N → Reading N (List Float)
  | .nodes xs => do pure ((← xs.mapM c.textOf).map Number.read)
  | .atom a => pure [a.toNumber]

def allNumbers : List (Value N) → Reading N (List Float)
  | [] => pure []
  | v :: vs => do
    let first ← c.numbers v
    let rest ← allNumbers vs
    pure (first ++ rest)

end Call

namespace Function

variable {N : Type} [DecidableEq N] [Ord N] (f : Function N)

def accepts (count : Nat) : Bool :=
  f.minArguments ≤ count && f.maxArguments.all (count ≤ ·)

/-- Runs the function on converted arguments and converts its result. -/
def apply (c : Call N) (args : List (Value N)) : Reading N (Value N) := do
  let converted ← c.convertAll f.parameters args
  let value ← f.body c converted
  match f.result with
  | none => pure value
  | some type => Reading.ofExcept (value.coerce c.document.toHostTree type)

end Function

end ReactiveForm
