/-!
# JSON values

Values of the JSON data format. Members keep the order in which they are written, and a number
keeps its digits.
-/

set_option autoImplicit false

namespace ReactiveForm

inductive Json where
  | null
  | bool (value : Bool)
  | number (digits : String)
  | string (value : String)
  | array (items : List Json)
  | object (members : List (String × Json))
  /-- What is well formed but cannot be taken up, so that it may only be passed over. -/
  | unreadable
  deriving Repr, Inhabited

namespace Json

/-- The number of an integer. -/
def int (n : Int) : Json := .number (toString n)

/-- The number of a count. -/
def nat (n : Nat) : Json := .number (toString n)

/-- The list of texts. -/
def strings (texts : List String) : Json := .array (texts.map .string)

/-- The text, or null where there is none. -/
def ofOption : Option String → Json
  | none => .null
  | some s => .string s

/-- The value under a name; null where the value is no object or lacks the name. -/
def member (v : Json) (name : String) : Json :=
  match v with
  | .object members => (members.lookup name).getD .null
  | _ => .null

/-- A member that is written only where it is there. -/
def optionalMember (name : String) : Option Json → List (String × Json)
  | none => []
  | some v => [(name, v)]

/-- A list that is written only where it has items. -/
def listMember (name : String) : List Json → List (String × Json)
  | [] => []
  | v :: vs => [(name, .array (v :: vs))]

end Json

end ReactiveForm
