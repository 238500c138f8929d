import ReactiveForm.Function.Texts

/-!
# Functions on nodes, conditions and the clock
-/

set_option autoImplicit false

namespace ReactiveForm.Builtin

variable {N : Type} [DecidableEq N] [Ord N]

/-! ## The context -/

def last : Body N := fun c _ =>
  pure (.number (Float.ofNat c.size))

/-- The place of a node among the children of its parent that have the same name, counted from
one. -/
def placeAmongNamesakes (t : HostTree N) (x : N) : Float :=
  match t.parent x with
  | none => 1.0
  | some p =>
    match ((t.children p).filter fun y => t.name y == t.name x).idxOf? x with
    | some i => Float.ofNat (i + 1)
    | none => Number.nan

/-- The position of the context node, or the place of the first node given. -/
def position : Body N := fun c args => do
  match args with
  | [] => pure (.number (Float.ofNat c.position))
  | v :: _ =>
    match ← Reading.ofExcept v.toNodes with
    | [] => pure (.number Number.nan)
    | x :: _ => pure (.number (placeAmongNamesakes c.document.toHostTree x))

def count : Body N := fun _ args => do
  let xs ← Reading.ofExcept (args.headD (.nodes [])).toNodes
  pure (.number (Float.ofNat xs.length))

def current : Body N := fun c _ => do
  Reading.note [c.current]
  pure (.nodes [c.current])

/-! ## Names -/

/-- The first node given, or the context node where no argument is given. -/
def subject (c : Call N) (args : List (Value N)) : Reading N (Option N) := do
  match args with
  | [] => pure (some c.node)
  | v :: _ => pure (← Reading.ofExcept v.toNodes).head?

def nameText (c : Call N) (x : Option N) : String :=
  (x.bind c.document.name).getD ""

def name : Body N := fun c args => do
  pure (.string (nameText c (← subject c args)))

/-- The name without what stands before its last colon. -/
def localName : Body N := fun c args => do
  let full := nameText c (← subject c args)
  pure (.string (String.ofList (Text.afterLast ':' full.toList)))

/-! ## Conditions -/

/-- The truth of the first argument, or of an empty node-set where there is none. -/
def truthOf (args : List (Value N)) : Bool :=
  (args.headD (.nodes [])).toBool

def not : Body N := fun _ args => pure (.boolean !truthOf args)

def boolean : Body N := fun _ args => pure (.boolean (truthOf args))

def booleanFromString : Body N := onText fun s => .boolean (s == "true" || s == "1")

/-- The second or the third argument, as the first one says. -/
def choose : Body N := fun _ args =>
  pure ((if truthOf args then args[1]? else args[2]?).getD (.nodes []))

/-! ## The clock -/

def today : Body N := fun c _ => pure (.string c.now.dateText)

def now : Body N := fun c _ => pure (.string c.now.text)

end ReactiveForm.Builtin
