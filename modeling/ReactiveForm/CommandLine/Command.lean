import ReactiveForm.CommandLine.Change

/-!
# Commands

The command that the arguments of the program ask for. An option has its value behind an equals
sign or in the next argument; after a double hyphen there are no options any more.
-/

set_option autoImplicit false

namespace ReactiveForm

/-- How results are written. -/
inductive OutputFormat where
  | text
  | json
  deriving Repr, DecidableEq

def OutputFormat.ofName? : String → Option OutputFormat
  | "text" => some text
  | "json" => some json
  | _ => none

/-- How much is logged. -/
inductive LogLevel where
  | error
  | warn
  | info
  | debug
  | trace
  deriving Repr, DecidableEq

def LogLevel.ofName? : String → Option LogLevel
  | "error" => some error
  | "warn" => some warn
  | "info" => some info
  | "debug" => some debug
  | "trace" => some trace
  | _ => none

inductive Command where
  /-- Evaluates an expression on a form, or on an empty document. -/
  | eval (expression : String) (form : Option String) (format : OutputFormat)
  /-- Loads a form, changes it and shows it. -/
  | snapshot (form : String) (changes : ChangeOptions) (format : OutputFormat)
  /-- Shows the canonical text of an expression. -/
  | parse (expression : String)
  deriving Repr, DecidableEq

/-- Arguments sorted into options with their values and words, both in their order. -/
structure Arguments where
  options : List (String × String) := []
  words : List String := []
  deriving Repr, DecidableEq

namespace Arguments

def withOption (name value : String) (a : Arguments) : Arguments :=
  { a with options := (name, value) :: a.options }

def withWord (word : String) (a : Arguments) : Arguments :=
  { a with words := word :: a.words }

/-- Whether an argument is no value of an option before it and no word: a hyphen with something
behind it. -/
def isDashed (arg : String) : Bool :=
  match arg.toList with
  | '-' :: _ :: _ => true
  | _ => false

/-- The name of an option and the value behind its equals sign. -/
def option? (arg : String) : Option (String × Option String) :=
  match arg.toList with
  | '-' :: '-' :: cs =>
    let name := cs.takeWhile (· != '=')
    match cs.dropWhile (· != '=') with
    | [] => some (String.ofList name, none)
    | _ :: value => some (String.ofList name, some (String.ofList value))
  | _ => none

/-- Sorts arguments of which only the options of the given names are known. -/
def sort (known : List String) : List String → Option Arguments
  | [] => some {}
  | arg :: rest =>
    if arg = "--" then some { words := rest }
    else
      match option? arg with
      | some (name, some value) =>
        if known.contains name then (sort known rest).map (withOption name value) else none
      | some (name, none) =>
        match rest with
        | [] => none
        | value :: rest =>
          if known.contains name && !isDashed value then
            (sort known rest).map (withOption name value)
          else none
      | none => if isDashed arg then none else (sort known rest).map (withWord arg)

/-- The value of an option that may be given once; the outer absence stands for a repetition. -/
def single? (a : Arguments) (name : String) : Option (Option String) :=
  match a.options.filter (·.1 == name) with
  | [] => some none
  | [(_, value)] => some (some value)
  | _ => none

/-- Whether the log level is given at most once, and as one that exists. -/
def hasLogLevel (a : Arguments) : Bool :=
  match a.single? "log-level" with
  | none => false
  | some none => true
  | some (some level) => (LogLevel.ofName? level).isSome

def format? (a : Arguments) : Option OutputFormat :=
  match a.single? "format" with
  | none => none
  | some none => some .text
  | some (some format) => OutputFormat.ofName? format

/-- The path of the form, which is not empty. -/
def form? (a : Arguments) : Option (Option String) :=
  match a.single? "form" with
  | some (some "") => none
  | path => path

/-- The values of the options of a name, in their order. -/
def values (a : Arguments) (name : String) : List String :=
  (a.options.filter (·.1 == name)).map Prod.snd

/-- The places of the options of a name among all options. -/
def places (a : Arguments) (name : String) : List Nat :=
  (a.options.zipIdx.filter (·.1.1 == name)).map Prod.snd

/-- The options that ask for changes. -/
def changes (a : Arguments) : ChangeOptions :=
  .ofPlaces (fun kind => a.values kind.name) (fun kind => a.places kind.name)

end Arguments

namespace Command

def ofEval? (args : List String) : Option Command := do
  let a ← Arguments.sort ["log-level", "form", "format"] args
  guard a.hasLogLevel
  let form ← a.form?
  let format ← a.format?
  match a.words with
  | [expression] => some (.eval expression form format)
  | _ => none

def ofSnapshot? (args : List String) : Option Command := do
  let known := ["log-level", "form", "format"] ++ ChangeKind.all.map ChangeKind.name
  let a ← Arguments.sort known args
  guard (a.hasLogLevel && a.words.isEmpty)
  let form ← (← a.form?)
  let format ← a.format?
  some (.snapshot form a.changes format)

def ofParse? (args : List String) : Option Command := do
  let a ← Arguments.sort ["log-level"] args
  guard a.hasLogLevel
  match a.words with
  | [expression] => some (.parse expression)
  | _ => none

/-- The command named by an argument, with the arguments behind it. -/
def ofName? (name : String) (args : List String) : Option Command :=
  match name with
  | "eval" => ofEval? args
  | "snapshot" => ofSnapshot? args
  | "parse" => ofParse? args
  | _ => none

/-- The command that arguments ask for. Only the log level may stand in front of its name. -/
def ofArguments? : List String → Option Command
  | [] => none
  | "--log-level" :: level :: name :: args =>
    if (LogLevel.ofName? level).isSome then ofName? name args else none
  | arg :: args =>
    match Arguments.option? arg, args with
    | some ("log-level", some level), name :: args =>
      if (LogLevel.ofName? level).isSome then ofName? name args else none
    | _, _ => ofName? arg args

/-- The path of the form that a command reads. -/
def form? : Command → Option String
  | eval _ form _ => form
  | snapshot form _ _ => some form
  | parse _ => none

end Command

end ReactiveForm
