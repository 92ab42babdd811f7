import ElementCatalog.Source.Grammar.Classes
import ElementCatalog.Source.Grammar.Targets

/-!
# Grammar of operands

Literals, names, parentheses and arrow functions. A parenthesis is read once, as expressions and
patterns side by side; what follows it tells whether it holds the parameters of an arrow function.
-/

namespace ElementCatalog.Source.Grammar

open ElementCatalog.Source.Parser

/-! ## Literals -/

/-- A regular expression. -/
def regex : Parser Expr := do
  match scanRegex false false ((← get).here.drop 1) with
  | some n => pass .regex (n + 1); return .other []
  | none => stuck

/-- An element of an array, or an argument. -/
def listElement (g : Grammar) : Parser Expr := do
  if ← eatSign "..." then return .spread (← inside g.assignment)
  inside g.assignment

/-- An array literal. -/
def arrayLiteral (g : Grammar) : Parser Expr := do
  sign "["
  return .array (← listUntil "]" do
    if ← isSign "," then return .hole
    listElement g)

/-- The setters' first parameter may be the object itself; it comes before the value. -/
def setterParams (params : List Pattern) : List Pattern :=
  (params.map Pattern.undecorated).take 2

/-- An entry of an object after the word `get`, `set` or `async`. -/
def markedEntry (g : Grammar) (start : Position) (mark : String) : Parser Property := do
  let isGenerator ← if mark == "async" then eatSign "*" else pure false
  let k ← key g
  let value ← functionRest g start [] (mark == "async") isGenerator
  if mark == "async" then return .method k value
  if mark == "get" then return .accessor k [] value.returnType (value.body.getD [])
  return .accessor k (setterParams value.params) none (value.body.getD [])

/-- An entry of an object literal with a key. -/
def keyedEntry (g : Grammar) (start : Position) : Parser Property := do
  discard eatParamModifier
  let k ← key g
  let goesOn ← match ← token with
    | .sign "\x7d" => pure (k matches .ident _ _)
    | .sign text => pure (["(", "[", ":", ",", "?", "=", "*", "<"].contains text)
    | .word _ => pure true
    | .string _ => pure true
    | .number _ => pure true
    | _ => pure false
  if !goesOn then return .keyValue k (.other [])
  if ← eatSign ":" then return .keyValue k (← inside g.assignment)
  if ← isOneOf ["(", "<"] then return .method k (← functionRest g start [] false false)
  match k with
  | .ident _ name =>
    discard (eatSign "?")
    if ← eatSign "=" then return .withDefault name (← inside g.assignment)
    if ← isOneOf [",", "\x7d"] then return .shorthand name
    check (["get", "set", "async"].contains name)
    markedEntry g start name
  | _ => stuck

/-- An entry of an object literal. -/
def property (g : Grammar) : Parser Property := do
  let start ← place
  if ← eatSign "..." then return .spread (← inside g.assignment)
  if ← eatSign "*" then
    let k ← key g
    return .method k (← functionRest g start [] false true)
  keyedEntry g start

/-- The rule for object literals. -/
def objectRule (g : Grammar) : Parser Expr := do
  sign "\x7b"
  withSettings (fun s => { s with expectsColon := false }) do
    return .object (← listUntil "\x7d" (property g))

/-! ## Arrow functions -/

/-- An arrow function may start at the token under the cursor. -/
def arrowMayStart : Parser Bool := do
  let c ← get
  return c.arrowStart == some c.start.offset

/-- An arrow function may start here, if a name or a parenthesis does. -/
def markArrowStart : Parser Unit := do
  let starts := (← onVariable) || (← isSign "(")
  modify fun c => { c with arrowStart := if starts then some c.start.offset else none }

/-- The body of an arrow function. -/
def arrowBody (g : Grammar) (isAsync : Bool) (params inner : List Pattern) : Parser Expr :=
  insideFunction isAsync false do
    if ← isSign "\x7b" then return .arrow params (← block g) inner
    return .arrowTo params (← g.assignment) inner

/-- An arrow function with type parameters after the word `async`. -/
def genericAsyncArrow (g : Grammar) : Parser Expr := do
  advance
  let typeParams ← arrowTypeParams g
  let params := (← g.params).map Pattern.undecorated
  let result ← declaredResult g
  sign "=>"
  arrowBody g true params (innerOfParams typeParams ++ innerOf? result)

/-! ## Parentheses -/

/-- The choices after a condition. -/
def choices (g : Grammar) (condition : Expr) : Parser Expr := do
  sign "?"
  let yes ← withSettings
    (fun s => { s with inChoice := true, expectsColon := true, allowIn := true }) g.assignment
  sign ":"
  let no ← withSettings (fun s => { s with inChoice := true, expectsColon := false }) g.assignment
  return .operation [condition, yes, no]

/-- What stands between the commas in a parenthesis. -/
inductive GroupItem where
  | value (spread : Bool) (e : Expr)
  | pattern (p : Pattern)

/-- The items of a parenthesis as parameters. The rest of the arguments stands for itself only if it
    is last. -/
def paramsOf? : List GroupItem → Option (List Pattern)
  | [] => some []
  | [.value true e] => return [.rest (← targetOf? .newVariable e) none]
  | .value true _ :: rest => paramsOf? rest
  | .value false e :: rest => return (← targetOf? .newVariable e) :: (← paramsOf? rest)
  | [.pattern p] => some [p]
  | .pattern (.rest _ _) :: rest => paramsOf? rest
  | .pattern p :: rest => return p :: (← paramsOf? rest)

/-- The parameters that the items of a parenthesis are. -/
def groupParams (items : List GroupItem) : Parser (List Pattern) :=
  match paramsOf? items with
  | some params => pure params
  | none => stuck

/-- The expression of an item, and whether it is spread. After a name a question mark is not yet read
    as a condition. -/
def groupValue (g : Grammar) : Parser (Bool × Expr) := do
  if ← onVariable then return (false, ← finishAssignment g (← g.binary))
  if ← isSign "..." then
    let named ← next onVariable
    advance
    return (true, ← inside (if named then g.binary else g.assignment))
  return (false, ← inside g.assignment)

/-- An item that has turned out to be a pattern: its type and its default. -/
def groupPattern (g : Grammar) (spread : Bool) (e : Expr) : Parser Pattern := do
  match targetOf? .newVariable e with
  | none => stuck
  | some target =>
    let pattern := if spread then .rest target none else target
    let pattern ←
      if takesMark pattern || pattern matches .rest _ _ then do
        let type ← declaredType g
        pure (pattern.typed type)
      else pure pattern
    if ← eatSign "=" then return .withDefault pattern (← g.assignment)
    return pattern

/-- An item of a parenthesis. -/
def groupItem (g : Grammar) : Parser GroupItem := do
  modify fun c => { c with arrowStart := some c.start.offset }
  discard eatParamModifier
  let (spread, e) ← groupValue g
  let marked := (← isSign "?") && (← next (isOneOf [",", ":", ")", "="]))
  if marked then
    advance
    check (e matches .ident _)
  let e ← if !marked && !spread && (← isSign "?") then choices g e else pure e
  if marked || (← isSign ":") then return .pattern (← groupPattern g spread e)
  return .value spread e

/-- An arrow that follows the first item, where it could not be read with it. -/
def lateArrow (g : Grammar) (item : GroupItem) : Parser (List GroupItem) := do
  if !(← eatSign "=>") then return []
  let named := (item matches .value _ (.ident _)) || (item matches .pattern (.ident _ _))
  if !named then return []
  return [.value false (← arrowBody g false (← groupParams [item]) [])]

/-- The items of a parenthesis. -/
def groupItems (g : Grammar) : Parser (List GroupItem) := do
  sign "("
  withSettings (fun s => { s with allowIn := true, expectsColon := false }) <|
    loop ([] : List GroupItem) fun found => do
      if ← eatSign ")" then return .inr found.reverse
      let item ← groupItem g
      let more ← if found.isEmpty then lateArrow g item else pure []
      let found := more ++ item :: found
      if ← eatSign "," then return .inl found
      sign ")"
      return .inr found.reverse

/-- An arrow function between the choices of a condition: its result type can be told from the colon
    of the condition only by what follows it. -/
def arrowInChoice (g : Grammar) (isAsync : Bool) (items : List GroupItem) : Parser Expr := do
  let direct := (← settings).expectsColon
  sign ":"
  let result ← resultType g
  sign "=>"
  let arrow ← arrowBody g isAsync (← groupParams items) result.inner
  if direct then check (← isSign ":")
  return arrow

/-- The result type of an arrow function, if the arrow follows it. -/
def arrowResult (g : Grammar) : Parser TypeUse := do
  sign ":"
  let result ← resultType g
  check (← isSign "=>")
  return result

/-- A parenthesis that holds no parameters: the arguments of a call, or one or more expressions. -/
def groupExpr (called : Option Position) (items : List GroupItem) : Parser Expr := do
  let values := items.filterMap fun
    | .value spread e => some (if spread then .spread e else e)
    | .pattern _ => none
  match called with
  | some start => return .call start (.ident "async") [] values
  | none =>
    check (!values.any Expr.isSpread)
    match values with
    | [] => stuck
    | [e] => return .paren e
    | es => return .paren (.other es)

/-- A parenthesis, or the arrow function that it starts. `async` is the place of that word before
    it. -/
def group (g : Grammar) (mayBeArrow : Bool) (async : Option Position) : Parser Expr := do
  let items ← groupItems g
  let s ← settings
  if s.inChoice && (← isSign ":") then
    if let some arrow ← maybe (arrowInChoice g async.isSome items) then return arrow
  let result ←
    if !s.expectsColon && !s.inCase && (← isSign ":") then maybe (arrowResult g) else pure none
  let patterned := items.any fun item => item matches .pattern _
  if patterned || result.isSome || (← isSign "=>") then
    check (mayBeArrow && !(← onNewLine))
    sign "=>"
    let arrow ← arrowBody g async.isSome (← groupParams items) (innerOf? result)
    if (arrow matches .arrow _ _ _) && (← onOperatorSign) then return ← operators g 0 arrow
    return arrow
  groupExpr async items

/-! ## Words -/

/-- An arrow function after the word `async`, or that word itself as a name in the head of a loop or
    before a type. -/
def asyncArrow (g : Grammar) : Parser Expr := do
  if (← settings).inLoopHead && (← isWord "of") && !(← next (isSign "=>")) then
    return .ident "async"
  let name ← bindingName
  if name == "as" && !(← isSign "=>") then return .asType (.ident "async") (← g.type)
  sign "=>"
  arrowBody g true [.ident name none] []

/-- A name, or the arrow function that it starts. -/
def name (g : Grammar) (mayBeArrow : Bool) (name : String) : Parser Expr := do
  advance
  if !mayBeArrow || (← onNewLine) then return .ident name
  if name == "async" && (← onVariable) then return ← asyncArrow g
  if ← eatSign "=>" then return ← arrowBody g false [.ident name none] []
  return .ident name

/-- An operand that starts with the word `async`. -/
def asyncOperand (g : Grammar) (mayBeArrow : Bool) : Parser Expr := do
  if ← onAsyncFunction then return ← functionExpr g
  if mayBeArrow then
    if ← next (isSign "<") then
      if let some arrow ← maybe (genericAsyncArrow g) then return arrow
    let start ← place
    if ← next (do return (← isSign "(") && !(← onNewLine)) then
      advance
      return ← group g mayBeArrow (some start)
  name g mayBeArrow "async"

/-- A class in an expression. -/
def classExpr (g : Grammar) (start : Position) (marks : List Decorator) : Parser Expr := do
  return .classExpr (← classNamed g start marks optionalClassName).2

/-- An operand that starts with a word. -/
def wordOperand (g : Grammar) (mayBeArrow : Bool) (word : String) : Parser Expr := do
  match word with
  | "this" => advance; return .other []
  | "null" => advance; return .null
  | "true" => advance; return .boolean true
  | "false" => advance; return .boolean false
  | "function" => functionExpr g
  | "class" => classExpr g (← place) []
  | "async" => asyncOperand g mayBeArrow
  | _ =>
    check (!reservedWords.contains word || word == "let" || word == "await")
    name g mayBeArrow word

/-- An operand. Decorators stand before a class; before a name they are passed over. -/
def operand (g : Grammar) : Parser Expr := do
  let mayBeArrow ← arrowMayStart
  match ← token with
  | .word word => wordOperand g mayBeArrow word
  | .string value => advance; return .string value
  | .number value => advance; return .number value
  | .bigint => advance; return .bigint
  | .template =>
    let (pieces, parts) ← plainTemplate g.expression
    return .template pieces parts
  | .privateName _ => advance; return .other []
  | .sign "(" => group g mayBeArrow none
  | .sign "[" => arrayLiteral g
  | .sign "\x7b" => objectRule g
  | .sign "/" => regex
  | .sign "/=" => regex
  | .sign "@" =>
    let start ← place
    let marks ← decorators g
    match ← token with
    | .word "class" => classExpr g start marks
    | .word word =>
      check (!reservedWords.contains word)
      name g mayBeArrow word
    | .privateName _ => advance; return .other []
    | _ => stuck
  | _ => stuck

end ElementCatalog.Source.Grammar
