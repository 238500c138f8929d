import ReactiveForm.Definition.Basic
import ReactiveForm.Text.Letter

/-!
# Form descriptions

A form as an author describes it, and the definition tree made of the description. A node without
a kind is a group when it has children and a value when it has none. The template of a repeat is
the instance marked as such, or the children of the repeat, or the first instance with its leaves
emptied.
-/

set_option autoImplicit false

namespace ReactiveForm

inductive DescriptionKind where
  | group
  | range
  | value
  | selectMany
  | selectOne
  deriving Repr, DecidableEq

namespace DescriptionKind

def all : List DescriptionKind := [group, range, value, selectMany, selectOne]

def name : DescriptionKind → String
  | group => "group"
  | range => "repeat"
  | value => "value"
  | selectMany => "select"
  | selectOne => "select1"

def ofName? (s : String) : Option DescriptionKind :=
  all.find? (·.name == s)

end DescriptionKind

structure Description where
  name : String := ""
  kind : Option DescriptionKind := none
  label : Option String := none
  hint : Option String := none
  bind : Bind := {}
  /-- Default content; words for a selection. -/
  default : Option String := none
  children : List Description := []
  instances : List Description := []
  /-- Whether this instance is the template of its repeat. -/
  template : Bool := false
  items : List Item := []
  itemset : Option Itemset := none
  deriving Repr

inductive DefinitionError where
  | duplicateTemplate (reference : String)
  | conflictingItems (reference : String)
  | invalidName (name parent : String)
  | invalidRoot (kind : DescriptionKind)
  /-- The text is no description. -/
  | malformed
  deriving Repr, DecidableEq

namespace DefinitionError

def message : DefinitionError → String
  | duplicateTemplate reference => s!"repeat {reference} declares more than one template"
  | conflictingItems reference =>
    s!"select {reference} declares both static items and an itemset"
  | invalidName name parent => s!"invalid node name '{name}' below {parent}"
  | invalidRoot kind => s!"the form root must be a group, found {kind.name}"
  | malformed => "malformed form description"

end DefinitionError

namespace Description

def resolvedKind (d : Description) : DescriptionKind :=
  d.kind.getD (if d.children.isEmpty then .value else .group)

def isNameStart (c : Char) : Bool :=
  Text.isAlphabetic c || c = '_'

def isNameChar (c : Char) : Bool :=
  Text.isAlphanumeric c || c = '_' || c = '-' || c = '.'

def isName (s : String) : Bool :=
  match s.toList with
  | [] => false
  | c :: cs => isNameStart c && cs.all isNameChar

/-- The words of a text, each at its first place only. -/
def distinctWords (s : String) : List String :=
  (Text.words s).eraseDups

/-- What is selected at first: one word at most in single mode. -/
def defaultSelection (mode : SelectMode) (default : Option String) : List String :=
  let values := distinctWords (default.getD "")
  match mode with
  | .single => values.take 1
  | .multiple => values

/-- The header of a node below `parent`. -/
def headerBelow (parent name : String) (bind : Bind) (label hint : Option String) : Header :=
  { reference := parent ++ "/" ++ name, name, bind, label, hint }

def selection (header : Header) (mode : SelectMode) (default : Option String) (items : List Item)
    (itemset : Option Itemset) : Except DefinitionError Definition :=
  if !items.isEmpty && itemset.isSome then .error (.conflictingItems header.reference)
  else .ok (.select header mode (defaultSelection mode default) items itemset)

/-- The children made of the body of an instance, and whether it is marked as the template. -/
abbrev BuiltBody := Bool × Except DefinitionError (List Definition)

/-- The repeat made of its own children and of the bodies of its instances. -/
def repetition (header : Header) (children : Except DefinitionError (List Definition))
    (hasChildren : Bool) (bodies : List BuiltBody) : Except DefinitionError Definition := do
  let marked := bodies.filter (·.1)
  if 1 < marked.length + (if hasChildren then 1 else 0) then
    throw (.duplicateTemplate header.reference)
  let template ← match marked, hasChildren, bodies with
    | (_, body) :: _, _, _ => do pure (Definition.inst header (← body))
    | [], true, _ => do pure (Definition.inst header (← children))
    | [], false, (_, body) :: _ => do pure (Definition.inst header (← body)).cleared
    | [], false, [] => pure (Definition.inst header [])
  let instances ← (bodies.filter (!·.1)).mapM fun (_, body) => do
    pure (Definition.inst header (← body))
  pure (.range { header with bind := {} } template instances)

mutual

/-- The definition made of a description below the node with reference `parent`. -/
def build (parent : String) : Description → Except DefinitionError Definition
  | ⟨name, kind, label, hint, bind, default, children, instances, _, items, itemset⟩ => do
    if !isName name then throw (.invalidName name parent)
    let header := headerBelow parent name bind label hint
    match kind.getD (if children.isEmpty then .value else .group) with
    | .group => do pure (.group header (← buildAll header.reference children))
    | .value => pure (.value header (default.getD ""))
    | .selectMany => selection header .multiple default items itemset
    | .selectOne => selection header .single default items itemset
    | .range =>
      repetition header (buildAll header.reference children) (!children.isEmpty)
        (buildBodies header.reference instances)

/-- The definitions made of descriptions; the first that is wrong decides. -/
def buildAll (parent : String) : List Description → Except DefinitionError (List Definition)
  | [] => pure []
  | d :: ds => do
    let first ← build parent d
    let rest ← buildAll parent ds
    pure (first :: rest)

/-- The children made of the bodies of the instances of a repeat. -/
def buildBodies (reference : String) : List Description → List BuiltBody
  | [] => []
  | ⟨_, _, _, _, _, _, children, _, template, _, _⟩ :: ds =>
    (template, buildAll reference children) :: buildBodies reference ds

end

/-- The definition tree of a whole form. -/
def toDefinition (d : Description) : Except DefinitionError Definition := do
  if d.resolvedKind != .group then throw (.invalidRoot d.resolvedKind)
  if !isName d.name then throw (.invalidName d.name "/")
  let header := headerBelow "" d.name d.bind d.label d.hint
  pure (.root header (← buildAll header.reference d.children))

end Description

end ReactiveForm
