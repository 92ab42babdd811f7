import ElementCatalog.Source.Grammar.Accesses

/-!
# Grammar of expressions

The rules from operators with one operand up to lists of expressions. An operator that lacks an
operand is read all the same, as if something stood in its place.
-/

namespace ElementCatalog.Source.Grammar

open ElementCatalog.Source.Parser

/-! ## Operators -/

/-- A value that is asserted to have the type in brackets before it. -/
def assertion (g : Grammar) : Parser Expr := do
  sign "<"
  if ← eatWord "const" then
    sign ">"
    return .asConst (← g.unary)
  let type ← g.type
  sign ">"
  return .asType (← g.unary) type

/-- What is waited for. Outside of asynchronous functions the word may be a name. -/
def awaiting (g : Grammar) : Parser Expr := do
  word "await"
  let named := (← isOneOf [")", "]", ","]) || (← onEnd)
  if named && !(← settings).inAsync then return .ident "await"
  return .awaited (← g.unary)

/-- An operand with a step operator after it on the same line. -/
def stepped (g : Grammar) : Parser Expr := do
  let e ← accessedRule g
  if isArrow e || (← onNewLine) then return e
  if (← eatSign "++") || (← eatSign "--") then return .operation [e]
  return e

/-- The rule for operators with one operand. -/
def unaryRule (g : Grammar) : Parser Expr := do
  match ← token with
  | .word "typeof" => applied .other
  | .word "void" => applied .other
  | .word "delete" => applied .other
  | .word "await" => awaiting g
  | .sign "!" => applied .other
  | .sign "~" => applied .other
  | .sign "+" => applied .plus
  | .sign "-" => applied .minus
  | .sign "++" => advance; return .operation [← g.unary]
  | .sign "--" => advance; return .operation [← g.unary]
  | .sign "<" => if (← settings).markup then stepped g else assertion g
  | _ => stepped g
where
  /-- An operator before its operand, which may be missing. -/
  applied (operator : UnaryOperator) : Parser Expr := do
    advance
    return .unary operator ((← recovered g.unary).getD (.other []))

/-- The rule for an operand with the binary operators that bind more strongly than given. -/
def operationRule (g : Grammar) (least : Nat) : Parser Expr := do
  operators g least (← unaryRule g)

/-- The cursor stands on an operator whose left operand is missing. -/
def onLooseOperator : Parser Bool := do
  if ← onOperatorSign then return true
  match ← token with
  | .word "instanceof" => return true
  | .word "in" => return (← settings).allowIn
  | _ => return false

/-- The rule for an operand with its binary operators. Before an operator the first operand may be
    missing. -/
def binaryRule (g : Grammar) : Parser Expr := do
  match ← recovered (unaryRule g) with
  | some first => if isArrow first then return first else operators g 0 first
  | none =>
    check (← onLooseOperator)
    operators g 0 (.other [])

/-- A condition with its choices. -/
def conditional (g : Grammar) : Parser Expr := do
  let condition ← binaryRule g
  if !isArrow condition && (← isSign "?") then choices g condition else return condition

/-! ## Assignments -/

/-- The value that a generator hands out. -/
def yielded (g : Grammar) : Parser Expr := do
  check (!(← settings).inParams)
  word "yield"
  if (← onEnd) || !(← startsValue) then return .other []
  discard (eatSign "*")
  return .other [← g.assignment]
where
  /-- A value to hand out starts here. -/
  startsValue : Parser Bool := do
    return (← onExpression) || (← isOneOf ["*", "/", "/=", "+", "-", "<", "@"]) ||
      (← isWord "import")

/-- An assignment or a conditional expression. -/
def plainAssignment (g : Grammar) : Parser Expr := do
  if (← settings).inGenerator && (← isWord "yield") then return ← yielded g
  markArrowStart
  let left ← conditional g
  if isArrow left || isOperation left then return left
  finishAssignment g left

/-- An arrow function with type parameters. -/
def genericArrow (g : Grammar) : Parser Expr :=
  withSettings (fun s => { s with expectsColon := false }) do
    let typeParams ← arrowTypeParams g
    let inner := innerOfParams typeParams
    match ← plainAssignment g with
    | .arrow params body more => return .arrow params body (inner ++ more)
    | .arrowTo params value more => return .arrowTo params value (inner ++ more)
    | _ => stuck

/-- The rule for expressions without commas. -/
def assignmentRule (g : Grammar) : Parser Expr := do
  if (← isSign "<") && (← next onWord) then
    if let some arrow ← maybe (genericArrow g) then return arrow
  plainAssignment g

/-- The rule for expressions. -/
def expressionRule (g : Grammar) : Parser Expr := do
  match ← separated "," g.assignment with
  | [e] => return e
  | es => return .other es

end ElementCatalog.Source.Grammar
