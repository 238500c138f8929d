import ReactiveForm.Expr.Attempt
import ReactiveForm.Expr.Name
import ReactiveForm.Expr.Syntax
import ReactiveForm.Expr.SyntaxError

/-!
# The grammar of expressions

Operators bind, from weak to strong: `or`, `and`, equality, order, sums, products, the sign and
the union. Binary operators associate to the left. Names of operators, axes and node types are
ordinary names wherever an operand is expected.

What stands in parentheses, brackets or argument lists is an expression one level deeper; `expr n`
admits `n` levels, and no text is nested deeper than it is long.
-/

set_option autoImplicit false

namespace ReactiveForm.Expr

/-! ## Operators -/

/-- An operator written as punctuation. -/
def sign (s : String) (op : Operator) : Rule Operator := do
  Rule.token (Scan.word s.toList)
  pure op

/-- An operator written as a word. -/
def operatorName (s : String) (op : Operator) : Rule Operator := do
  Rule.token (keyword s)
  pure op

def orOperator : Rule Operator := operatorName "or" .or

def andOperator : Rule Operator := operatorName "and" .and

def equalityOperator : Rule Operator := sign "=" .eq <|> sign "!=" .ne

def orderOperator : Rule Operator :=
  sign "<=" .le <|> sign "<" .lt <|> sign ">=" .ge <|> sign ">" .gt

def sumOperator : Rule Operator := sign "+" .add <|> sign "-" .sub

def productOperator : Rule Operator :=
  sign "*" .mul <|> operatorName "div" .div <|> operatorName "mod" .mod

/-- Operands joined by operators of one level, grouped from the left. -/
def chain (operator : Rule Operator) (operand : Rule Expr) : Rule Expr := do
  let first ← operand
  let rest ← Rule.many (do
    let op ← operator
    let right ← operand
    pure (op, right))
  pure (rest.foldl (fun left (op, right) => .binary op left right) first)

/-! ## Tokens of operands -/

/-- A text between two marks, without that mark inside. -/
def quoted (mark : Char) : Scan String
  | [] => none
  | c :: rest =>
    if c = mark then
      match rest.dropWhile (· != mark) with
      | _ :: after => some (String.ofList (rest.takeWhile (· != mark)), after)
      | [] => none
    else none

def stringLiteral : Rule Expr := do
  let s ← Rule.token (Scan.orElse (quoted '"') (quoted '\''))
  pure (.text s)

/-- Digits, with or without a point among or in front of them. -/
def numeral : Scan Float := fun s =>
  let whole := s.takeWhile Char.isDigit
  match s.dropWhile Char.isDigit with
  | '.' :: rest =>
    let fraction := rest.takeWhile Char.isDigit
    if whole.isEmpty && fraction.isEmpty then none
    else some (Number.ofDigits whole fraction, rest.dropWhile Char.isDigit)
  | rest => if whole.isEmpty then none else some (Number.ofDigits whole [], rest)

def numberLiteral : Rule Expr := do
  let x ← Rule.token numeral
  pure (.number x)

/-- A name right after a dollar sign. -/
def variableReference : Rule Expr := Rule.named do
  Rule.exactly (Scan.char '$')
  let name ← fun s =>
    match qualifiedName s with
    | some r => ⟨some r, none⟩
    | none => ⟨none, some s.length⟩
  pure (.variable name)

def nodeTypes : List (String × NodeTest) :=
  [("node", .node), ("text", .text), ("comment", .comment)]

/-- The test that a node type stands for. -/
def nodeType : Scan NodeTest := fun s =>
  (nodeTypes.lookup (String.ofList (s.takeWhile isNameChar))).map
    fun test => (test, s.dropWhile isNameChar)

/-- Whether a node type with an opening parenthesis stands in front. -/
def opensNodeType (s : List Char) : Bool :=
  match nodeType s with
  | some (_, rest) => (Rule.skipBlanks rest).head? == some '('
  | none => false

/-! ## Steps -/

/-- A wildcard or a name. -/
def nameTest : Scan NodeTest
  | '*' :: rest => some (.any, rest)
  | s =>
    match simpleName s with
    | some (name, ':' :: '*' :: rest) => some (.qualifier (String.ofList name), rest)
    | _ => (qualifiedName s).map fun (name, rest) => (.name name, rest)

def kindTest : Rule NodeTest := do
  let test ← Rule.token nodeType
  Rule.mark '('
  Rule.mark ')'
  pure test

def nodeTest : Rule NodeTest := kindTest <|> Rule.token nameTest

def axisName : Scan Axis := fun s =>
  (Axis.ofName? (String.ofList (s.takeWhile isNameChar))).map
    fun axis => (axis, s.dropWhile isNameChar)

def namedAxis : Rule Axis := do
  let axis ← Rule.token axisName
  Rule.token (Scan.word [':', ':'])
  pure axis

def atSign : Rule Axis := do
  Rule.token (Scan.char '@')
  pure .attributes

def axisOf : Rule Axis := namedAxis <|> atSign

/-- The steps to the parent and to the node itself. -/
def shortStep : Rule (Step Expr) :=
  (do
    Rule.token (Scan.word ['.', '.'])
    pure ⟨.parent, .node, []⟩) <|>
  (do
    Rule.token (Scan.char '.')
    pure ⟨.self, .node, []⟩)

/-- An expression in brackets. -/
def predicate (inner : Rule Expr) : Rule Expr := Rule.named do
  Rule.mark '['
  let e ← inner
  Rule.mark ']'
  pure e

def fullStep (inner : Rule Expr) : Rule (Step Expr) := do
  let axis ← Rule.optional axisOf
  let test ← nodeTest
  let predicates ← Rule.many (predicate inner)
  pure ⟨axis.getD .child, test, predicates⟩

def step (inner : Rule Expr) : Rule (Step Expr) := shortStep <|> fullStep inner

/-! ## Paths -/

/-- The steps that a separator adds: a double slash looks at any depth. -/
def separator : Rule (List (Step Expr)) :=
  (do
    Rule.token (Scan.word ['/', '/'])
    pure [Step.anyDepth]) <|>
  (do
    Rule.token (Scan.char '/')
    pure [])

def relativePath (inner : Rule Expr) : Rule (List (Step Expr)) := do
  let first ← step inner
  let rest ← Rule.many (do
    let between ← separator
    let s ← step inner
    pure (between ++ [s]))
  pure (first :: rest.flatten)

def absolutePath (inner : Rule Expr) : Rule Expr :=
  (do
    Rule.token (Scan.word ['/', '/'])
    let steps ← relativePath inner
    pure (.path .root (Step.anyDepth :: steps))) <|>
  (do
    Rule.token (Scan.char '/')
    let steps ← Rule.optional (relativePath inner)
    pure (.path .root (steps.getD [])))

/-! ## Operands -/

def parenthesized (inner : Rule Expr) : Rule Expr := Rule.named do
  Rule.mark '('
  let e ← inner
  Rule.mark ')'
  pure e

/-- Expressions between commas; there may be none. -/
def arguments (inner : Rule Expr) : Rule (List Expr) := do
  match ← Rule.optional inner with
  | none => pure []
  | some first =>
    let rest ← Rule.many (do
      Rule.mark ','
      inner)
    pure (first :: rest)

/-- A name with arguments in parentheses. Node types are not functions. -/
def functionCall (inner : Rule Expr) : Rule Expr := Rule.named fun s =>
  if opensNodeType s then { parsed := none }
  else
    (do
      let name ← Rule.token qualifiedName
      Rule.mark '('
      let args ← arguments inner
      Rule.mark ')'
      pure (.call name args) : Rule Expr) s

def primary (inner : Rule Expr) : Rule Expr :=
  variableReference <|> parenthesized inner <|> stringLiteral <|> numberLiteral
    <|> functionCall inner

/-- A primary expression with the predicates and the steps that go on from it. -/
def filterPath (inner : Rule Expr) : Rule Expr := do
  let base ← primary inner
  let predicates ← Rule.many (predicate inner)
  let filtered := if predicates.isEmpty then base else .filter base predicates
  let steps ← Rule.optional (do
    let between ← separator
    let steps ← relativePath inner
    pure (between ++ steps))
  match steps with
  | none => pure filtered
  | some steps => pure (.path (.nodes filtered) steps)

def contextPath (inner : Rule Expr) : Rule Expr := do
  let steps ← relativePath inner
  pure (.path .context steps)

def pathExpr (inner : Rule Expr) : Rule Expr :=
  absolutePath inner <|> filterPath inner <|> contextPath inner

def unionExpr (inner : Rule Expr) : Rule Expr := do
  let first ← pathExpr inner
  let rest ← Rule.many (do
    Rule.token (Scan.char '|')
    pathExpr inner)
  pure (rest.foldl .union first)

/-- Any number of minus signs in front of a union. -/
def signedExpr (inner : Rule Expr) : Rule Expr := do
  let signs ← Rule.many (Rule.token (Scan.char '-'))
  let e ← unionExpr inner
  pure (signs.foldl (fun e _ => .negate e) e)

/-- One level of the grammar, given the rule for what stands inside brackets. -/
def level (inner : Rule Expr) : Rule Expr :=
  chain orOperator <| chain andOperator <| chain equalityOperator <| chain orderOperator <|
    chain sumOperator <| chain productOperator <| signedExpr inner

/-- Expressions with brackets nested less than `depth` deep. -/
def expr : (depth : Nat) → Rule Expr
  | 0 => Rule.refuse
  | depth + 1 => level (expr depth)

/-! ## Whole texts -/

def endOfText : Scan Unit
  | [] => some ((), [])
  | _ => none

/-- An expression that takes up the whole text. -/
def whole (s : List Char) : Attempt Expr :=
  (do
    let e ← expr (s.length + 1)
    Rule.token endOfText
    pure e : Rule Expr) s

/-- The expression that a text stands for. -/
def read (text : String) : Except SyntaxError Expr :=
  match whole text.toList with
  | ⟨some (e, _), _⟩ => .ok e
  | ⟨none, stuck⟩ => .error (.locate text.toList (stuck.getD text.length))

end ReactiveForm.Expr
