import ReactiveForm.Function.Library
import ReactiveForm.Function.Nodes
import ReactiveForm.Function.Numbers

/-!
# The built-in functions

The functions that every expression may call, with the types of their parameters.
-/

set_option autoImplicit false

namespace ReactiveForm

namespace Builtin

variable {N : Type} [DecidableEq N] [Ord N]

/-- A built-in function that takes from `least` to `most` arguments. -/
def entry (name : String) (least : Nat) (most : Option Nat) (parameters : List (Option ValueType))
    (body : Body N) : String × Function N :=
  (name,
    { minArguments := least, maxArguments := most, parameters, result := none, builtin := true
      body })

/-- The parameter that takes values as they are. -/
abbrev any : Option ValueType := none

abbrev str : Option ValueType := some .string

abbrev num : Option ValueType := some .number

def conditions : List (String × Function N) := [
  entry "true" 0 (some 0) [] fun _ _ => pure (.boolean true),
  entry "false" 0 (some 0) [] fun _ _ => pure (.boolean false),
  entry "not" 1 (some 1) [any] not,
  entry "boolean" 1 (some 1) [any] boolean,
  entry "boolean-from-string" 1 (some 1) [str] booleanFromString,
  entry "if" 3 (some 3) [any] choose]

def nodeFunctions : List (String × Function N) := [
  entry "last" 0 (some 0) [] last,
  entry "position" 0 (some 1) [any] position,
  entry "count" 1 (some 1) [any] count,
  entry "local-name" 0 (some 1) [any] localName,
  entry "name" 0 (some 1) [any] name,
  entry "current" 0 (some 0) [] current]

def textFunctions : List (String × Function N) := [
  entry "string" 0 (some 1) [any] string,
  entry "concat" 1 none [str] concat,
  entry "starts-with" 2 (some 2) [str, str] startsWith,
  entry "ends-with" 2 (some 2) [str, str] endsWith,
  entry "contains" 2 (some 2) [str, str] contains,
  entry "substring-before" 2 (some 2) [str, str] substringBefore,
  entry "substring-after" 2 (some 2) [str, str] substringAfter,
  entry "substring" 2 (some 3) [str, num, num] substring,
  entry "string-length" 0 (some 1) [str] stringLength,
  entry "normalize-space" 0 (some 1) [str] normalizeSpace,
  entry "translate" 3 (some 3) [str, str, str] translate,
  entry "join" 1 none [any] join,
  entry "coalesce" 2 (some 2) [str, str] coalesce,
  entry "regex" 2 (some 2) [str, str] regex]

def numberFunctions : List (String × Function N) := [
  entry "number" 0 (some 1) [any] number,
  entry "sum" 1 (some 1) [any] sum,
  entry "floor" 1 (some 1) [num] (onNumber Float.floor),
  entry "ceiling" 1 (some 1) [num] (onNumber Float.ceil),
  entry "round" 1 (some 1) [num] (onNumber Number.round),
  entry "int" 1 (some 1) [num] (onNumber Number.truncate),
  entry "abs" 1 (some 1) [num] (onNumber Float.abs),
  entry "min" 1 none [any] min,
  entry "max" 1 none [any] max]

def mathFunctions : List (String × Function N) := [
  entry "pi" 0 (some 0) [] fun _ _ => pure (.number pi),
  entry "sqrt" 1 (some 1) [num] (onNumber Float.sqrt),
  entry "pow" 2 (some 2) [num, num] (onNumbers Float.pow),
  entry "exp" 1 (some 1) [num] (onNumber Float.exp),
  entry "exp10" 1 (some 1) [num] (onNumber (Float.pow 10.0)),
  entry "log" 1 (some 1) [num] (onNumber Float.log),
  entry "log10" 1 (some 1) [num] (onNumber Float.log10),
  entry "sin" 1 (some 1) [num] (onNumber Float.sin),
  entry "cos" 1 (some 1) [num] (onNumber Float.cos),
  entry "tan" 1 (some 1) [num] (onNumber Float.tan),
  entry "asin" 1 (some 1) [num] (onNumber Float.asin),
  entry "acos" 1 (some 1) [num] (onNumber Float.acos),
  entry "atan" 1 (some 1) [num] (onNumber Float.atan),
  entry "atan2" 2 (some 2) [num, num] (onNumbers Float.atan2)]

def selectionFunctions : List (String × Function N) := [
  entry "selected" 2 (some 2) [str, str] selected,
  entry "count-selected" 1 (some 1) [str] countSelected,
  entry "selected-at" 2 (some 2) [str, num] selectedAt]

def clockFunctions : List (String × Function N) := [
  entry "today" 0 (some 0) [] today,
  entry "now" 0 (some 0) [] now]

end Builtin

open Builtin in
/-- The library of the built-in functions. -/
def Library.builtins {N : Type} [DecidableEq N] [Ord N] : Library N :=
  ⟨conditions ++ nodeFunctions ++ textFunctions ++ numberFunctions ++ mathFunctions
    ++ selectionFunctions ++ clockFunctions⟩

end ReactiveForm
