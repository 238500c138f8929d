import ReactiveForm.CommandLine.Command
import ReactiveForm.Definition.Json
import ReactiveForm.Document.Markup
import ReactiveForm.Expr.Canonical
import ReactiveForm.Json.Printer

/-!
# Reports

What a command writes: the value of an expression, or the state of a form, as text for a reader or
as JSON.
-/

set_option autoImplicit false

namespace ReactiveForm

/-- A value to be shown; nodes are shown by their references and texts. -/
inductive Finding where
  | atom (value : Atom)
  | nodes (list : List (String × String))
  deriving Repr

namespace Finding

variable {N : Type}

def ofValue (describe : N → String × String) : Value N → Finding
  | .atom a => .atom a
  | .nodes xs => .nodes (xs.map describe)

def nodeLine : String × String → String
  | (reference, text) => reference ++ " = " ++ Text.quoted text

def lines : Finding → List String
  | atom a => [a.toText]
  | nodes [] => ["(empty node-set)"]
  | nodes xs => xs.map nodeLine

def toJson : Finding → Json
  | atom (.string s) => .object [("type", .string "string"), ("value", .string s)]
  | atom (.number x) => .object [("type", .string "number"), ("value", .string (Number.text x))]
  | atom (.boolean b) => .object [("type", .string "boolean"), ("value", .bool b)]
  | nodes xs =>
    let entry : String × String → Json
      | (reference, text) => .object [("reference", .string reference), ("value", .string text)]
    .object [("type", .string "node-set"), ("nodes", .array (xs.map entry))]

end Finding

namespace Report

/-- Lines one below the other, without blanks at the end of the last. -/
def ofLines (lines : List String) : String :=
  String.ofList (Text.trimEnd ("\n".intercalate lines).toList)

def ofFinding (f : Finding) : OutputFormat → String
  | .text => ofLines f.lines
  | .json => f.toJson.indented ""

/-- The type of a node, and what about its state is worth a word. -/
def stateWords (s : Snapshot) : List String :=
  [s.type.name] ++ (if s.relevant then [] else ["non-relevant"]) ++
    (if s.readonly then ["readonly"] else []) ++ (if s.required then ["required"] else []) ++
    (if s.valid then [] else ["invalid"])

/-- The line of a node. -/
def nodeLine (s : Snapshot) : String :=
  let value := (s.value.map fun v => " = " ++ Text.quoted v).getD ""
  let label := (s.label.map fun l => " " ++ Text.quoted l).getD ""
  s.reference ++ value ++ " [" ++ ", ".intercalate (stateWords s) ++ "]" ++ label

/-- The lines below the line of a node: its items and what is wrong with it. -/
def detailLines (s : Snapshot) : List String :=
  (s.items.map fun items => "items: " ++ ", ".intercalate (items.map (·.value))).toList ++
    s.errors.map ("! " ++ ·)

mutual

/-- The lines of a node and of all nodes below it, each level indented further. -/
def nodeLines (indent : String) (s : Snapshot) : List String :=
  match s with
  | ⟨_, _, _, _, _, _, _, _, _, _, _, _, _, _, children⟩ =>
    (indent ++ nodeLine s) :: (detailLines s).map (indent ++ "  " ++ ·) ++
      allNodeLines (indent ++ "  ") children

def allNodeLines (indent : String) : List Snapshot → List String
  | [] => []
  | s :: ss => nodeLines indent s ++ allNodeLines indent ss

end

/-- The state of a form with the cycles of its last pass. -/
def ofForm (f : Form) (format : OutputFormat) : String :=
  match f.snapshot? f.root, format with
  | none, _ => ""
  | some s, .text => ofLines (nodeLines "" s ++ f.cycles.map fun c => "! " ++ c.message)
  | some s, .json => s.toJson.indented ""

end Report

end ReactiveForm
