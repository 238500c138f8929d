import ReactiveForm.Function.Basic

/-!
# Function libraries

The functions known to an expression, by name. A name never changes its meaning: registering a
second function of the same name is refused.
-/

set_option autoImplicit false

namespace ReactiveForm

structure Library (N : Type) [DecidableEq N] [Ord N] where
  entries : List (String × Function N) := []

inductive RegistrationError where
  | unsupportedArguments (tags : List String)
  | unsupportedResult (tag : String)
  | duplicate (name : String)
  deriving Repr, DecidableEq

def RegistrationError.message : RegistrationError → String
  | unsupportedArguments tags =>
    "Unsupported arg type(s): " ++ ", ".intercalate (tags.map fun t => "'" ++ t ++ "'")
  | unsupportedResult tag => s!"Unsupported return type: '{tag}'"
  | duplicate name => s!"There is already a function with the name: '{name}'"

namespace Library

variable {N : Type} [DecidableEq N] [Ord N] (l : Library N)

def find? (name : String) : Option (Function N) :=
  l.entries.lookup name

/-- The function of this name for so many arguments. -/
def resolve (name : String) (count : Nat) : Except EvalError (Function N) :=
  match l.find? name with
  | none => .error (.unknownFunction name)
  | some f => if f.accepts count then .ok f else .error (.wrongArity name count)

/-- Adds a function with parameters and a result of fixed types. -/
def registerTyped (name : String) (parameters : List ValueType) (result : ValueType)
    (body : Body N) :
    Except RegistrationError (Library N) :=
  if (l.find? name).isSome then .error (.duplicate name)
  else
    .ok ⟨l.entries ++ [(name,
      { minArguments := parameters.length
        maxArguments := some parameters.length
        parameters := parameters.map some
        result := some result
        builtin := false
        body })]⟩

/-- Adds a function whose types are given by their tags. -/
def register (name : String) (parameterTags : List String) (resultTag : String)
    (body : Body N) :
    Except RegistrationError (Library N) :=
  let unsupported := parameterTags.filter fun tag => (ValueType.ofTag? tag).isNone
  if !unsupported.isEmpty then .error (.unsupportedArguments unsupported)
  else
    match ValueType.ofTag? resultTag with
    | none => .error (.unsupportedResult resultTag)
    | some result => l.registerTyped name (parameterTags.filterMap ValueType.ofTag?) result body

end Library

end ReactiveForm
