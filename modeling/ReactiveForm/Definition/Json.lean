import ReactiveForm.Definition.Description
import ReactiveForm.Json.Reader

/-!
# Form descriptions in JSON

A record is an object with the names of its members, or an array of the members in their order;
members may be left out unless they are required. Nodes and binds refuse members that they do not
know. A member that is absent is not written, nor is a bind without expressions.
-/

set_option autoImplicit false

namespace ReactiveForm

namespace Json

/-! ## Reading members -/

def asText? : Json → Option String
  | .string s => some s
  | _ => none

def asBool? : Json → Option Bool
  | .bool b => some b
  | _ => none

/-- A member that may be null. -/
def asOptional? {α : Type} (read : Json → Option α) : Json → Option (Option α)
  | .null => some none
  | v => (read v).map some

def asList? {α : Type} (read : Json → Option α) : Json → Option (List α)
  | .array vs => vs.mapM read
  | _ => none

/-- The members of a record in the order of their names, where `none` marks one that is absent.
A closed record has no other members. -/
def record? (names : List String) (closed : Bool) : Json → Option (List (Option Json))
  | .object ms =>
    let present := ms.map Prod.fst
    if closed && !present.all names.contains then none
    else if names.any fun n => 1 < present.count n then none
    else some (names.map fun n => ms.lookup n)
  | .array vs =>
    if names.length < vs.length then none
    else some (vs.map some ++ List.replicate (names.length - vs.length) none)
  | _ => none

/-- The member, or the default where it is absent. -/
def orDefault {α : Type} (read : Json → Option α) (default : α) : Option Json → Option α
  | none => some default
  | some v => read v

end Json

open Json

namespace Item

def ofJson? (v : Json) : Option Item := do
  match ← record? ["value", "label"] false v with
  | [value, label] =>
    some { value := ← value.bind asText?, label := ← orDefault asText? "" label }
  | _ => none

def toJson (i : Item) : Json :=
  .object [("value", .string i.value), ("label", .string i.label)]

end Item

namespace Itemset

def ofJson? (v : Json) : Option Itemset := do
  match ← record? ["nodeset", "value", "label"] false v with
  | [nodeset, value, label] =>
    some
      { nodeset := ← nodeset.bind asText?
        value := ← orDefault asText? "value" value
        label := ← orDefault asText? "label" label }
  | _ => none

def toJson (s : Itemset) : Json :=
  .object [("nodeset", .string s.nodeset), ("value", .string s.value), ("label", .string s.label)]

end Itemset

namespace Bind

def memberNames : List String :=
  ["relevant", "readonly", "required", "calculate", "constraint", "constraintMessage"]

def ofJson? (v : Json) : Option Bind := do
  let text := orDefault (asOptional? asText?) none
  match ← record? memberNames true v with
  | [relevant, readonly, required, calculate, constraint, constraintMessage] =>
    some
      { relevant := ← text relevant
        readonly := ← text readonly
        required := ← text required
        calculate := ← text calculate
        constraint := ← text constraint
        constraintMessage := ← text constraintMessage }
  | _ => none

def toJson (b : Bind) : Json :=
  .object
    [("relevant", .ofOption b.relevant), ("readonly", .ofOption b.readonly),
     ("required", .ofOption b.required), ("calculate", .ofOption b.calculate),
     ("constraint", .ofOption b.constraint), ("constraintMessage", .ofOption b.constraintMessage)]

end Bind

namespace DescriptionKind

/-- A kind by its name, which may also be the only member of an object and null. -/
def ofJson? : Json → Option DescriptionKind
  | .string s => ofName? s
  | .object [(s, .null)] => ofName? s
  | _ => none

end DescriptionKind

namespace Description

def memberNames : List String :=
  ["name", "kind", "label", "hint", "bind", "default", "children", "instances", "template",
    "items", "itemset"]

/-- The description with one more member, which is not a list of descriptions. -/
def withMember (d : Description) (name : String) (v : Json) : Option Description :=
  match name with
  | "name" => (asText? v).map fun x => { d with name := x }
  | "kind" => (asOptional? DescriptionKind.ofJson? v).map fun x => { d with kind := x }
  | "label" => (asOptional? asText? v).map fun x => { d with label := x }
  | "hint" => (asOptional? asText? v).map fun x => { d with hint := x }
  | "bind" => (Bind.ofJson? v).map fun x => { d with bind := x }
  | "default" => (asOptional? asText? v).map fun x => { d with default := x }
  | "template" => (asBool? v).map fun x => { d with template := x }
  | "items" => (asList? Item.ofJson? v).map fun x => { d with items := x }
  | "itemset" => (asOptional? Itemset.ofJson? v).map fun x => { d with itemset := x }
  | _ => none

mutual

/-- The description that a JSON value stands for. -/
def ofJson? : Json → Option Description
  | .object ms => ofMembers ms
  | .array vs => ofPositions memberNames vs
  | _ => none

/-- The description with the given members, each of which occurs once. -/
def ofMembers : List (String × Json) → Option Description
  | [] => some {}
  | (name, v) :: rest => do
    let d ← ofMembers rest
    if (rest.map Prod.fst).contains name then none
    ofMember name v d

/-- The description whose first members are given, in the order of the names. -/
def ofPositions : (names : List String) → List Json → Option Description
  | _, [] => some {}
  | [], _ :: _ => none
  | name :: names, v :: vs => do
    let d ← ofPositions names vs
    ofMember name v d

/-- The description with one more member. -/
def ofMember (name : String) : Json → Description → Option Description
  | .array vs, d =>
    if name = "children" then (ofList vs).map fun x => { d with children := x }
    else if name = "instances" then (ofList vs).map fun x => { d with instances := x }
    else d.withMember name (.array vs)
  | v, d => d.withMember name v

def ofList : List Json → Option (List Description)
  | [] => some []
  | v :: vs => do
    let d ← ofJson? v
    let ds ← ofList vs
    some (d :: ds)

end

mutual

/-- The JSON value of a description. -/
def toJson : Description → Json
  | ⟨name, kind, label, hint, bind, default, children, instances, template, items, itemset⟩ =>
    .object <|
      [("name", .string name)]
      ++ Json.optionalMember "kind" (kind.map fun k => .string k.name)
      ++ Json.optionalMember "label" (label.map .string)
      ++ Json.optionalMember "hint" (hint.map .string)
      ++ (if bind.isEmpty then [] else [("bind", bind.toJson)])
      ++ Json.optionalMember "default" (default.map .string)
      ++ Json.listMember "children" (toJsonAll children)
      ++ Json.listMember "instances" (toJsonAll instances)
      ++ (if template then [("template", .bool true)] else [])
      ++ Json.listMember "items" (items.map Item.toJson)
      ++ Json.optionalMember "itemset" (itemset.map Itemset.toJson)

def toJsonAll : List Description → List Json
  | [] => []
  | d :: ds => toJson d :: toJsonAll ds

end

/-- The description that a JSON text stands for. -/
def read (text : String) : Except DefinitionError Description :=
  match (Json.read? text).bind ofJson? with
  | some d => .ok d
  | none => .error .malformed

end Description

end ReactiveForm
