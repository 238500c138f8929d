import ReactiveForm.Pattern.Folding

/-!
# Classes in brackets

A class is read from symbols, so that an escaped character is never taken for an operator. Items
are characters, ranges, sets and classes in brackets of their own; `&&`, `--` and `~~` join what
stands before and after them, from the left to the right.
-/

set_option autoImplicit false

namespace ReactiveForm.Pattern

/-- What the text of a class is made of. -/
inductive ClassSymbol where
  /-- A character as it stands. -/
  | plain (c : Char)
  /-- A character that was escaped. -/
  | guarded (c : Char)
  | set (s : CharSet)
  deriving Repr

/-- A part of a class: its characters, and how deep it nests. -/
structure ClassPart where
  set : CharSet
  depth : Nat := 0

/-- The items read so far. -/
abbrev ClassItems := List ClassPart

/-- The items as one part. Several items nest deeper than one. -/
def ClassItems.part (items : ClassItems) : ClassPart :=
  match items with
  | [] => ⟨.none, 0⟩
  | [item] => item
  | _ => ⟨.unions (items.map (·.set)), items.foldl (fun d p => max d p.depth) 0 + 1⟩

inductive ClassOperator where
  | intersection
  | difference
  | symmetricDifference

/-- What stands before an operator, with the operator. -/
abbrev ClassLeft := Option (ClassPart × ClassOperator)

def foldWhen (anyCase : Bool) (s : CharSet) : CharSet := if anyCase then s.anyCase else s

/-- The part joined with what stands before it. -/
def ClassLeft.join (anyCase : Bool) (left : ClassLeft) (right : ClassPart) : ClassPart :=
  match left with
  | none => right
  | some (p, operator) =>
    let s := foldWhen anyCase p.set
    let t := foldWhen anyCase right.set
    let set := match operator with
      | .intersection => s.intersection t
      | .difference => s.difference t
      | .symmetricDifference => s.symmetricDifference t
    ⟨set, max p.depth right.depth + 1⟩

/-! ## Named classes -/

def namedClass? (name : String) : Option CharSet :=
  match name with
  | "alnum" => some (.ofNotation ["30-39 41-5A 61-7A"])
  | "alpha" => some (.ofNotation ["41-5A 61-7A"])
  | "ascii" => some (.ofNotation ["0-7F"])
  | "blank" => some (.ofNotation ["9 20"])
  | "cntrl" => some (.ofNotation ["0-1F 7F"])
  | "digit" => some (.ofNotation ["30-39"])
  | "graph" => some (.ofNotation ["21-7E"])
  | "lower" => some (.ofNotation ["61-7A"])
  | "print" => some (.ofNotation ["20-7E"])
  | "punct" => some (.ofNotation ["21-2F 3A-40 5B-60 7B-7E"])
  | "space" => some (.ofNotation ["9-D 20"])
  | "upper" => some (.ofNotation ["41-5A"])
  | "word" => some (.ofNotation ["30-39 41-5A 5F 61-7A"])
  | "xdigit" => some (.ofNotation ["30-39 41-46 61-66"])
  | _ => none

/-- The plain characters up to a colon, and what follows them. -/
def nameSymbols : List ClassSymbol → List Char × List ClassSymbol
  | .plain c :: rest =>
    if c = ':' then ([], .plain c :: rest)
    else
      let (name, after) := nameSymbols rest
      (c :: name, after)
  | rest => ([], rest)

/-- A class such as `[:alpha:]`, if one stands in front. -/
def namedInFront? (anyCase : Bool) : List ClassSymbol → Option (ClassPart × List ClassSymbol)
  | .plain '[' :: .plain ':' :: rest => do
    let (negated, rest) := match rest with
      | .plain '^' :: rest => (true, rest)
      | rest => (false, rest)
    let (name, rest) := nameSymbols rest
    match rest with
    | .plain ':' :: .plain ']' :: rest =>
      let set := foldWhen anyCase (← namedClass? (String.ofList name))
      some (⟨if negated then set.complement else set, 0⟩, rest)
    | _ => none
  | _ => none

/-! ## Items -/

/-- The character of a symbol that may be the end of a range. -/
def ClassSymbol.char? : ClassSymbol → Option Char
  | plain c | guarded c => some c
  | set _ => none

def ClassSymbol.toSet : ClassSymbol → CharSet
  | plain c | guarded c => .one c
  | set s => s

/-- A symbol, or a range where a hyphen follows that does not end the class and begins no
operator. -/
def classRange? : List ClassSymbol → Option (CharSet × List ClassSymbol)
  | [] => none
  | first :: .plain '-' :: .plain ']' :: rest =>
    some (first.toSet, .plain '-' :: .plain ']' :: rest)
  | first :: .plain '-' :: .plain '-' :: rest =>
    some (first.toSet, .plain '-' :: .plain '-' :: rest)
  | first :: .plain '-' :: last :: rest => do
    let a ← first.char?
    let b ← last.char?
    if a ≤ b then some (.range a b, rest) else none
  | [_, .plain '-'] => none
  | first :: rest => some (first.toSet, rest)

/-- Hyphens that a class begins with. -/
def leadingHyphens : List ClassSymbol → ClassItems × List ClassSymbol
  | .plain '-' :: rest =>
    let (items, rest) := leadingHyphens rest
    (⟨.one '-', 0⟩ :: items, rest)
  | rest => ([], rest)

mutual

/-- A class from its opening bracket on, and what follows it. -/
def readClass? (anyCase : Bool) :
    (fuel : Nat) → List ClassSymbol → Option (ClassPart × List ClassSymbol)
  | fuel + 1, .plain '[' :: rest => do
    let (negated, rest) := match rest with
      | .plain '^' :: rest => (true, rest)
      | rest => (false, rest)
    let (hyphens, rest) := leadingHyphens rest
    let (items, rest) := match hyphens, rest with
      | [], .plain ']' :: rest => ([⟨.one ']', 0⟩], rest)
      | hyphens, rest => (hyphens, rest)
    let (part, rest) ← readItems? anyCase fuel none items rest
    let set := foldWhen anyCase part.set
    some (⟨if negated then set.complement else set, part.depth + 1⟩, rest)
  | _, _ => none

/-- Items up to the closing bracket. -/
def readItems? (anyCase : Bool) :
    (fuel : Nat) → ClassLeft → ClassItems → List ClassSymbol →
      Option (ClassPart × List ClassSymbol)
  | 0, _, _, _ => none
  | fuel + 1, left, items, symbols =>
    let operate (operator : ClassOperator) (rest : List ClassSymbol) :=
      readItems? anyCase fuel (some (left.join anyCase items.part, operator)) [] rest
    match symbols with
    | [] => none
    | .plain ']' :: rest => some (left.join anyCase items.part, rest)
    | .plain '&' :: .plain '&' :: rest => operate .intersection rest
    | .plain '-' :: .plain '-' :: rest => operate .difference rest
    | .plain '~' :: .plain '~' :: rest => operate .symmetricDifference rest
    | .plain '[' :: rest =>
      match namedInFront? anyCase (.plain '[' :: rest) with
      | some (part, rest) => readItems? anyCase fuel left (items ++ [part]) rest
      | none => do
        let (part, rest) ← readClass? anyCase fuel (.plain '[' :: rest)
        readItems? anyCase fuel left (items ++ [part]) rest
    | symbols => do
      let (set, rest) ← classRange? symbols
      readItems? anyCase fuel left (items ++ [⟨set, 0⟩]) rest

end

/-- Characters that mean something of their own outside of brackets. -/
def isOperator (c : Char) : Bool :=
  ['\\', '.', '+', '*', '?', '(', ')', '|', '[', '\x7b', '^', '$'].contains c

/-- The sets of symbols that were left over where a range took an opening bracket for its end. -/
def leftOver? : List ClassSymbol → Option (List CharSet)
  | [] => some []
  | .plain c :: rest => if isOperator c then none else (leftOver? rest).map (.one c :: ·)
  | .guarded c :: rest => (leftOver? rest).map (.one c :: ·)
  | .set s :: rest => (leftOver? rest).map (s :: ·)

end ReactiveForm.Pattern
