import ReactiveForm.Function.Basic
import ReactiveForm.Number.Arithmetic
import ReactiveForm.Pattern.Match
import ReactiveForm.Pattern.Reader
import ReactiveForm.Text.Search

/-!
# Functions on text

Text functions, pattern matching, and the lists of selected values, which are texts of words.
-/

set_option autoImplicit false

namespace ReactiveForm

/-- The text of an argument that has been converted to text. -/
def textArgument {N : Type} (args : List (Value N)) (i : Nat) : String :=
  match args[i]? with
  | some (.atom (.string s)) => s
  | _ => ""

/-- The number of an argument that has been converted to a number. -/
def numberArgument {N : Type} (args : List (Value N)) (i : Nat) : Float :=
  match args[i]? with
  | some (.atom (.number x)) => x
  | _ => Number.nan

namespace Text

/-- The characters at the places, counted from one, from `start` up to but not with `stop`. -/
def slice (cs : List Char) (start stop : Float) : List Char :=
  (cs.zipIdx 1).filterMap fun (c, i) =>
    let place := Float.ofNat i
    if start ≤ place && place < stop then some c else none

/-- The word at a place counted from zero; the fraction of the place is dropped. -/
def wordAt (s : String) (place : Float) : String :=
  if place.isFinite && 0.0 ≤ place then ((words s)[(Magnitude.ofFloat place).whole]?).getD ""
  else ""

/-- Whether a word is among the words of a text. -/
def hasWord (s wanted : String) : Bool :=
  (words s).contains (trimmed wanted)

end Text

namespace Builtin

variable {N : Type} [DecidableEq N] [Ord N]

/-- The function on one text. -/
def onText (f : String → Value N) : Body N := fun _ args =>
  pure (f (textArgument args 0))

/-- The function on two texts. -/
def onTexts (f : String → String → Value N) : Body N := fun _ args =>
  pure (f (textArgument args 0) (textArgument args 1))

/-- The text given, or the text of the context node where none is given. -/
def textOrContext (c : Call N) (args : List (Value N)) : Reading N String :=
  match args with
  | [] => c.textOf c.node
  | _ => pure (textArgument args 0)

def string : Body N := fun c args => do
  match args with
  | [] => pure (.string (← c.textOf c.node))
  | v :: _ => pure (.string (← c.valueText v))

def concat : Body N := fun _ args =>
  pure (.string (String.join ((List.range args.length).map (textArgument args))))

def startsWith : Body N := onTexts fun s t => .boolean (t.toList.isPrefixOf s.toList)

def endsWith : Body N := onTexts fun s t => .boolean (t.toList.isSuffixOf s.toList)

def contains : Body N := onTexts fun s t => .boolean (Text.cut t.toList s.toList).isSome

def substringBefore : Body N := onTexts fun s t =>
  .string (String.ofList (((Text.cut t.toList s.toList).map Prod.fst).getD []))

def substringAfter : Body N := onTexts fun s t =>
  .string (String.ofList (((Text.cut t.toList s.toList).map Prod.snd).getD []))

def substring : Body N := fun _ args =>
  let start := Number.round (numberArgument args 1)
  let stop :=
    if 2 < args.length then start + Number.round (numberArgument args 2) else Number.infinity
  pure (.string (String.ofList (Text.slice (textArgument args 0).toList start stop)))

def stringLength : Body N := fun c args => do
  pure (.number (Float.ofNat (← textOrContext c args).length))

def normalizeSpace : Body N := fun c args => do
  pure (.string (" ".intercalate (Text.words (← textOrContext c args))))

def translate : Body N := fun _ args =>
  pure (.string (String.ofList (Text.translate (textArgument args 1).toList
    (textArgument args 2).toList (textArgument args 0).toList)))

/-- The first argument between the texts of the others. -/
def join : Body N := fun c args => do
  match args with
  | [] => pure (.string "")
  | v :: vs =>
    let separator ← c.valueText v
    let parts ← c.allTexts vs
    pure (.string (separator.intercalate parts))

/-- The first text unless it is empty, else the second. -/
def coalesce : Body N := onTexts fun s t => .string (if s.isEmpty then t else s)

def regex : Body N := fun _ args =>
  match Pattern.read? (textArgument args 1) with
  | some matcher =>
    match matcher.occursIn (textArgument args 0) with
    | .ok found => pure (.boolean found)
    | .error overrun =>
      Reading.fail (.failed ("regex evaluation failed: Error executing regex: "
        ++ overrun.message))
  | none => Reading.fail (.badPattern (textArgument args 1))

/-! ## Lists of selected values -/

def selected : Body N := onTexts fun s t => .boolean (Text.hasWord s t)

def countSelected : Body N := onText fun s => .number (Float.ofNat (Text.words s).length)

def selectedAt : Body N := fun _ args =>
  pure (.string (Text.wordAt (textArgument args 0) (numberArgument args 1)))

end Builtin

end ReactiveForm
