/-!
# Finding and replacing text
-/

set_option autoImplicit false

namespace ReactiveForm.Text

/-- What stands before and after the first occurrence of a text. -/
def cut (needle : List Char) : List Char → Option (List Char × List Char)
  | [] => if needle.isEmpty then some ([], []) else none
  | c :: cs =>
    if needle.isPrefixOf (c :: cs) then some ([], (c :: cs).drop needle.length)
    else (cut needle cs).map fun (before, after) => (c :: before, after)

/-- Characters of `source` become those at the same place of `target`, or nothing where `target`
is too short. -/
def translate (source target : List Char) (cs : List Char) : List Char :=
  cs.filterMap fun c =>
    match source.idxOf? c with
    | some i => target[i]?
    | none => some c

/-- What stands after the last occurrence of a character; all the text where there is none. -/
def afterLast (c : Char) (cs : List Char) : List Char :=
  (cs.reverse.takeWhile (· != c)).reverse

end ReactiveForm.Text
