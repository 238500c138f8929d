import ReactiveForm.Json.Basic

/-!
# Writing JSON

The compact form, and the indented form in which every item and member has a line of its own.
-/

set_option autoImplicit false

namespace ReactiveForm.Json

/-- The two hexadecimal digits of a number below 256. -/
def hexByte (n : Nat) : List Char :=
  [Nat.digitChar (n / 16), Nat.digitChar (n % 16)]

/-- A character inside a string: quotes, backslashes and control characters are escaped. -/
def escape (c : Char) : List Char :=
  if c = '"' then ['\\', '"']
  else if c = '\\' then ['\\', '\\']
  else if c = '\n' then ['\\', 'n']
  else if c = '\r' then ['\\', 'r']
  else if c = '\t' then ['\\', 't']
  else if c.toNat = 8 then ['\\', 'b']
  else if c.toNat = 12 then ['\\', 'f']
  else if c.toNat < 32 then ['\\', 'u', '0', '0'] ++ hexByte c.toNat
  else [c]

def quoted (s : String) : String :=
  String.ofList ('"' :: s.toList.flatMap escape ++ ['"'])

mutual

/-- The value on one line. -/
def compact : Json → String
  | .null | .unreadable => "null"
  | .bool b => if b then "true" else "false"
  | .number digits => digits
  | .string s => quoted s
  | .array items => "[" ++ ",".intercalate (compactItems items) ++ "]"
  | .object members => "\x7b" ++ ",".intercalate (compactMembers members) ++ "\x7d"

def compactItems : List Json → List String
  | [] => []
  | v :: rest => compact v :: compactItems rest

def compactMembers : List (String × Json) → List String
  | [] => []
  | (name, v) :: rest => (quoted name ++ ":" ++ compact v) :: compactMembers rest

end

/-- Lines between an opening and a closing bracket, one step further in. -/
def block (opening closing indent : String) (lines : List String) : String :=
  if lines.isEmpty then opening ++ closing
  else
    let inner := "\n" ++ indent ++ "  "
    opening ++ inner ++ ("," ++ inner).intercalate lines ++ "\n" ++ indent ++ closing

mutual

/-- The value on several lines, where all but the first start with the indentation. -/
def indented (indent : String) : Json → String
  | .array items => block "[" "]" indent (indentedItems (indent ++ "  ") items)
  | .object members => block "\x7b" "\x7d" indent (indentedMembers (indent ++ "  ") members)
  | .null | .unreadable => "null"
  | .bool b => if b then "true" else "false"
  | .number digits => digits
  | .string s => quoted s

def indentedItems (indent : String) : List Json → List String
  | [] => []
  | v :: rest => indented indent v :: indentedItems indent rest

def indentedMembers (indent : String) : List (String × Json) → List String
  | [] => []
  | (name, v) :: rest =>
    (quoted name ++ ": " ++ indented indent v) :: indentedMembers indent rest

end

end ReactiveForm.Json
