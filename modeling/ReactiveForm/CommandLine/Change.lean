import ReactiveForm.Form.Action
import ReactiveForm.Number.Whole
import ReactiveForm.Text.Quoted

/-!
# Changes asked for on the command line

A change names a node by an expression and says what is to be done there, as in `/f/a=3` or
`/f/visit:0:2`. The sign between the parts counts only outside of predicates and quotations, so
that the expression may hold it too.
-/

set_option autoImplicit false

namespace ReactiveForm

inductive ChangeKind where
  | set
  | select
  | deselect
  | add
  | remove
  deriving Repr, DecidableEq

namespace ChangeKind

def all : List ChangeKind := [set, select, deselect, add, remove]

def name : ChangeKind → String
  | set => "set"
  | select => "select"
  | deselect => "deselect"
  | add => "add"
  | remove => "remove"

def ofName? (s : String) : Option ChangeKind := all.find? (·.name == s)

end ChangeKind

inductive Change where
  | set (reference value : String)
  | select (reference item : String)
  | deselect (reference item : String)
  | add (reference : String) (after : Option Int) (count : Nat)
  | remove (reference : String) (start count : Nat)
  deriving Repr, DecidableEq

/-! ## Parts of a text -/

/-- The text before and after the first separator that stands `depth` brackets further out than
here, and outside of a quotation that may be open here. -/
def cutOutside (separator : Char) : (depth : Nat) → (quote : Option Char) → List Char →
    Option (List Char × List Char)
  | _, _, [] => none
  | depth, some q, c :: cs =>
    (cutOutside separator depth (if c = q then none else some q) cs).map fun (a, b) => (c :: a, b)
  | depth, none, c :: cs =>
    if c = '\'' || c = '"' then
      (cutOutside separator depth (some c) cs).map fun (a, b) => (c :: a, b)
    else if c = '[' then
      (cutOutside separator (depth + 1) none cs).map fun (a, b) => (c :: a, b)
    else if c = ']' then
      (cutOutside separator (depth - 1) none cs).map fun (a, b) => (c :: a, b)
    else if c = separator && depth = 0 then some ([], cs)
    else (cutOutside separator depth none cs).map fun (a, b) => (c :: a, b)

/-- The parts between separators outside of predicates and quotations, cut at most `cuts` times. -/
def splitOutside (separator : Char) : (cuts : Nat) → List Char → List (List Char)
  | 0, text => [text]
  | cuts + 1, text =>
    match cutOutside separator 0 none text with
    | none => [text]
    | some (first, rest) => first :: splitOutside separator cuts rest

/-! ## Reading changes -/

/-- What is wrong with the text of a change. -/
inductive ChangeError where
  | noValue
  | noStart
  | badAfter (error : Number.WholeError)
  | badStart (error : Number.WholeError)
  | badCount (error : Number.WholeError)
  deriving Repr, DecidableEq

/-- What is wrong, and why. -/
def ChangeError.chain : ChangeError → List String
  | noValue => ["expected REF=VALUE"]
  | noStart => ["expected REF:START[:COUNT]"]
  | badAfter e => ["AFTER must be an integer", e.message]
  | badStart e => ["START must be a non-negative integer", e.message]
  | badCount e => ["COUNT must be a non-negative integer", e.message]

namespace Change

/-- The largest number of 64 bits. -/
def maxCount : Nat := 18446744073709551615

/-- The largest number of 64 bits with a sign. -/
def maxPlace : Nat := 9223372036854775807

/-- A reference and a value joined by an equals sign. -/
def readPair (text : List Char) : Except ChangeError (String × String) :=
  match splitOutside '=' 1 text with
  | [reference, value] => .ok (String.ofList (Text.trim reference), String.ofList value)
  | _ => .error .noValue

/-- A count, which is one where it is left out. -/
def readCount : Option (List Char) → Except ChangeError Nat
  | none => .ok 1
  | some digits => (Number.readNat maxCount (Text.trim digits)).mapError .badCount

/-- The place behind which to add, or none for the end. -/
def readAfter : Option (List Char) → Except ChangeError (Option Int)
  | none => .ok none
  | some part =>
    let place := Text.trim part
    if place.isEmpty || place = ['e', 'n', 'd'] then .ok none
    else ((Number.readInt maxPlace place).map some).mapError .badAfter

def readStart : Option (List Char) → Except ChangeError Nat
  | none => .error .noStart
  | some part => (Number.readNat maxCount (Text.trim part)).mapError .badStart

/-- A change of a kind from its text. -/
def read (kind : ChangeKind) (text : List Char) : Except ChangeError Change :=
  match kind with
  | .set => do
    let (reference, value) ← readPair text
    pure (.set reference value)
  | .select => do
    let (reference, item) ← readPair text
    pure (.select reference item)
  | .deselect => do
    let (reference, item) ← readPair text
    pure (.deselect reference item)
  | .add => do
    let parts := splitOutside ':' 2 text
    let reference := String.ofList (Text.trim (parts.headD []))
    let after ← readAfter parts[1]?
    let count ← readCount parts[2]?
    pure (.add reference after count)
  | .remove => do
    let parts := splitOutside ':' 2 text
    let reference := String.ofList (Text.trim (parts.headD []))
    let start ← readStart parts[1]?
    let count ← readCount parts[2]?
    pure (.remove reference start count)

end Change

/-- A text that asks for no change. -/
structure BadChange where
  kind : ChangeKind
  text : String
  error : ChangeError
  deriving Repr, DecidableEq

def BadChange.chain (b : BadChange) : List String :=
  s!"invalid --{b.kind.name} {b.text}" :: b.error.chain

namespace Change

/-- The changes that texts ask for, in their order; the first text that is wrong decides. -/
def readAll : List (ChangeKind × String) → Except BadChange (List Change)
  | [] => .ok []
  | (kind, text) :: rest =>
    match read kind text.toList with
    | .error error => .error { kind, text, error }
    | .ok change => (readAll rest).map (change :: ·)

/-- Texts listed kind by kind, in the order of kinds. -/
def grouped (texts : ChangeKind → List String) : List (ChangeKind × String) :=
  ChangeKind.all.flatMap fun kind => (texts kind).map fun text => (kind, text)

end Change

/-! ## Options that ask for changes -/

/-- The texts given with the options of each kind, and the kinds in the order of the options. Where
no order is known, the kinds follow each other. -/
structure ChangeOptions where
  set : List String := []
  select : List String := []
  deselect : List String := []
  add : List String := []
  remove : List String := []
  order : List ChangeKind := []
  deriving Repr, DecidableEq

/-- Why options do not ask for changes. -/
inductive ChangesError where
  /-- There are fewer texts of the kind than the order has places for. -/
  | noText (kind : ChangeKind)
  | bad (error : BadChange)
  deriving Repr, DecidableEq

def ChangesError.chain : ChangesError → List String
  | noText kind => [s!"missing value for --{kind.name}"]
  | bad error => error.chain

namespace ChangeOptions

def texts (o : ChangeOptions) : ChangeKind → List String
  | .set => o.set
  | .select => o.select
  | .deselect => o.deselect
  | .add => o.add
  | .remove => o.remove

/-- The kinds in the order of the places that each of them has. -/
def orderOf (places : ChangeKind → List Nat) : List ChangeKind :=
  let placed := ChangeKind.all.flatMap fun kind => (places kind).map fun place => (place, kind)
  (placed.mergeSort fun p q => p.1 ≤ q.1).map Prod.snd

/-- The texts given with the options of each kind, with the places of these options. -/
def ofPlaces (texts : ChangeKind → List String) (places : ChangeKind → List Nat) :
    ChangeOptions where
  set := texts .set
  select := texts .select
  deselect := texts .deselect
  add := texts .add
  remove := texts .remove
  order := orderOf places

/-- The kinds of the changes, one after the other. -/
def kinds (o : ChangeOptions) : List ChangeKind :=
  if o.order.isEmpty then (Change.grouped o.texts).map Prod.fst else o.order

/-- One text of the kind more has been used. -/
def advance (used : ChangeKind → Nat) (kind : ChangeKind) : ChangeKind → Nat :=
  fun other => if other = kind then used other + 1 else used other

/-- Deals out the texts of each kind in their order, of which some have been used. -/
def readFrom (texts : ChangeKind → List String) :
    (used : ChangeKind → Nat) → List ChangeKind → Except ChangesError (List Change)
  | _, [] => .ok []
  | used, kind :: rest =>
    match (texts kind)[used kind]? with
    | none => .error (.noText kind)
    | some text =>
      match Change.read kind text.toList with
      | .error error => .error (.bad { kind, text, error })
      | .ok change => (readFrom texts (advance used kind) rest).map (change :: ·)

/-- The changes that the options ask for. -/
def changes (o : ChangeOptions) : Except ChangesError (List Change) :=
  readFrom o.texts (fun _ => 0) o.kinds

end ChangeOptions

/-! ## Showing and making changes -/

namespace Change

/-- A name with named fields. -/
def record (name : String) (fields : List (String × String)) : String :=
  let shown := fields.map fun (field, value) => field ++ ": " ++ value
  name ++ " \x7b " ++ ", ".intercalate shown ++ " \x7d"

def afterText : Option Int → String
  | none => "None"
  | some i => s!"Some({i})"

/-- The change with all its parts. -/
def text : Change → String
  | set reference value =>
    record "Set" [("reference", Text.quoted reference), ("value", Text.quoted value)]
  | select reference item =>
    record "Select" [("reference", Text.quoted reference), ("item", Text.quoted item)]
  | deselect reference item =>
    record "Deselect" [("reference", Text.quoted reference), ("item", Text.quoted item)]
  | add reference after count =>
    record "Add" [("reference", Text.quoted reference), ("after", afterText after),
      ("count", toString count)]
  | remove reference start count =>
    record "Remove" [("reference", Text.quoted reference), ("start", toString start),
      ("count", toString count)]

/-- Makes the change at the node that the reference leads to. -/
def make : Change → Form.Action Refusal Unit
  | set reference value => do Form.setValue (← Form.resolve reference) value
  | select reference item => do Form.select (← Form.resolve reference) item
  | deselect reference item => do Form.deselect (← Form.resolve reference) item
  | add reference after count => do Form.addInstances (← Form.resolve reference) after count
  | remove reference start count => do Form.removeInstances (← Form.resolve reference) start count

end Change

end ReactiveForm
