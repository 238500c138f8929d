import ReactiveForm.CommandLine.Run
import Std.Time.DateTime.Timestamp

/-!
# The program

Reads the clock and the form, and writes what a command has to say.
-/

set_option autoImplicit false

namespace ReactiveForm

def usage : String :=
  "usage: reactive-form [--log-level LEVEL] COMMAND\n" ++
  "  eval [--form FILE] [--format text|json] XPATH\n" ++
  "  snapshot --form FILE [--format text|json] [--set REF=VALUE] [--select REF=ITEM]\n" ++
  "    [--deselect REF=ITEM] [--add REF[:AFTER[:COUNT]]] [--remove REF:START[:COUNT]]\n" ++
  "  parse XPATH"

/-- The text of a file, if it can be read. -/
def fileText? (path : String) : IO (Option String) := do
  try
    pure (some (← IO.FS.readFile path))
  catch _ =>
    pure none

def present : IO Moment := do
  let now ← Std.Time.Timestamp.now
  pure (.ofUnix now.toMillisecondsSinceUnixEpoch.val.toNat)

end ReactiveForm

open ReactiveForm

def main (args : List String) : IO UInt32 := do
  match Command.ofArguments? args with
  | none =>
    IO.eprintln usage
    pure 2
  | some command =>
    let text ← match command.form? with
      | none => pure none
      | some path => fileText? path
    match command.run (fun _ => text) (← present) with
    | .ok output =>
      if !output.isEmpty then IO.println output
      pure 0
    | .error failure =>
      IO.eprintln failure.message
      pure failure.exitStatus
