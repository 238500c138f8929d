import ReactiveForm.CommandLine.Report

/-!
# Running commands

What a command writes, or why it fails. A failure tells its causes from the outermost inwards and
has an exit status: 2 where a form, an expression or a change is refused, and 1 for all else.
-/

set_option autoImplicit false

namespace ReactiveForm

inductive Failure where
  | badChange (error : BadChange)
  /-- An option of the kind has no text. -/
  | noText (kind : ChangeKind)
  /-- There is no file at the path. -/
  | unreadable (path : String)
  | badDefinition (path : String) (error : DefinitionError)
  | badRule (path : String) (error : RuleError)
  | refused (change : Change) (refusal : Refusal)
  | badValue (error : EvalError)
  | badExpression (error : SyntaxError)
  deriving Repr, DecidableEq

namespace Failure

def ofChanges : ChangesError → Failure
  | .bad e => badChange e
  | .noText kind => noText kind

def chain : Failure → List String
  | badChange e => (ChangesError.bad e).chain
  | noText kind => (ChangesError.noText kind).chain
  | unreadable path => [s!"failed to read form definition {path}"]
  | badDefinition path e => [s!"failed to load form definition {path}", e.message]
  | badRule path e => [s!"failed to load form definition {path}", e.message, e.error.message]
  | refused change e => [s!"{change.text} failed", e.message]
  | badValue e => [e.message]
  | badExpression e => [e.message]

def message (f : Failure) : String := ": ".intercalate f.chain

def exitStatus : Failure → UInt32
  | badChange _ => 1
  | noText _ => 1
  | unreadable _ => 1
  | _ => 2

end Failure

namespace Command

variable (files : String → Option String) (now : Moment)

/-- The form described in a file. -/
def loadForm (path : String) : Except Failure Form := do
  match files path with
  | none => throw (.unreadable path)
  | some text =>
    match Description.read text >>= Description.toDefinition with
    | .error e => throw (.badDefinition path e)
    | .ok d => (Form.load d {} now).mapError (.badRule path)

/-- The value of an expression on a form. -/
def findIn (form : Form) (expression : String) : Except Failure Finding :=
  match ((Form.evaluate expression).run form).1 with
  | .error e => .error (.badValue e)
  | .ok v => .ok (Finding.ofValue (fun x => (form.viewReference x, form.viewText x)) v)

/-- The value of an expression on an empty document. -/
def findInNothing (expression : String) : Except Failure Finding :=
  let document := Markup.document []
  match Expr.read expression with
  | .error e => .error (.badValue (.badSyntax e))
  | .ok e =>
    let env : Environment Nat := { document, current := 0, library := .builtins, now }
    match env.evaluate e with
    | .error e => .error (.badValue e)
    | .ok v => .ok (Finding.ofValue (fun x => ("/", document.stringValue x)) v)

/-- Makes changes one after the other. -/
def makeAll : List Change → Form → Except Failure Form
  | [], form => .ok form
  | change :: rest, form =>
    match change.make.run form with
    | (.error e, _) => .error (.refused change e)
    | (.ok _, form) => makeAll rest form

/-- What a command writes. -/
def run : Command → Except Failure String
  | eval expression none format => do
    pure (Report.ofFinding (← findInNothing now expression) format)
  | eval expression (some path) format => do
    let form ← loadForm files now path
    pure (Report.ofFinding (← findIn form expression) format)
  | snapshot path options format => do
    let changes ← options.changes.mapError .ofChanges
    let form ← loadForm files now path
    pure (Report.ofForm (← makeAll changes form) format)
  | parse expression =>
    match Expr.read expression with
    | .error e => .error (.badExpression e)
    | .ok e => .ok e.toText

end Command

end ReactiveForm
