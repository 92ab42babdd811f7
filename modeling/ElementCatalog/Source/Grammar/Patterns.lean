import ElementCatalog.Source.Grammar.Types

/-!
# Grammar of patterns and functions

The rules for keys, bindings, decorators, parameters and the bodies of functions.
-/

namespace ElementCatalog.Source.Grammar

open ElementCatalog.Source.Parser

/-! ## Names and keys -/

/-- The name of a new variable. Words that are reserved only in some places may name one. -/
def bindingName : Parser String := do
  let ambient := (← settings).ambient
  match ← token with
  | .word name =>
    check (!reservedWords.contains name || ["this", "let", "yield"].contains name ||
      (name == "await" && ambient))
    advance
    return name
  | _ => stuck

/-- The name of a new variable that cannot be called `let`. -/
def strictBindingName : Parser String := do
  check (!(← isWord "let"))
  bindingName

/-- A key of an object or a pattern. Of several expressions in brackets all are visited. -/
def key (g : Grammar) : Parser Key := do
  let start ← place
  match ← token with
  | .word name => advance; return .ident start name
  | .string value => advance; return .string start value
  | .number value => advance; return .number start value
  | .bigint => advance; return .other start
  | .sign "[" =>
    advance
    let values ← inside (separated "," g.assignment)
    sign "]"
    match values with
    | [value] => return .computed start value
    | _ => return .computed start (.other values)
  | _ => stuck

/-- A key of a class, which may be a private name. -/
def classKey (g : Grammar) : Parser Key := do
  let start ← place
  match ← token with
  | .privateName _ => advance; return .other start
  | _ => key g

/-! ## Bindings -/

/-- A binding with a default after it, if there is one. -/
def bindingElement (g : Grammar) : Parser Pattern := do
  let pattern ← g.binding
  if ← eatSign "=" then return .withDefault pattern (← inside g.assignment)
  return pattern

/-- A question mark after a pattern, which may stand in ambient declarations. -/
def ambientMark : Parser Unit := do
  if (← settings).ambient then discard (eatSign "?")

/-- An array pattern. -/
def arrayPattern (g : Grammar) : Parser Pattern := do
  sign "["
  let elements ← listUntil "]" do
    if ← isSign "," then return .hole
    if ← eatSign "..." then return .rest (← g.binding) none
    bindingElement g
  ambientMark
  return .array elements none

/-- An entry of an object pattern. -/
def patternEntry (g : Grammar) : Parser Pattern := do
  if ← eatSign "..." then return .rest (← g.binding) none
  let k ← key g
  if ← eatSign ":" then return .keyed k (← bindingElement g)
  match k with
  | .ident _ name =>
    if ← eatSign "=" then return .shorthand name (some (← inside g.assignment))
    return .shorthand name none
  | _ => stuck

/-- An object pattern. -/
def objectPattern (g : Grammar) : Parser Pattern := do
  sign "\x7b"
  let entries ← withSettings (fun s => { s with expectsColon := false })
    (listUntil "\x7d" (patternEntry g))
  ambientMark
  return .object entries none

/-- The rule for bindings: a name or a pattern of names. -/
def bindingRule (g : Grammar) : Parser Pattern := do
  if ← isSign "[" then arrayPattern g
  else if ← isSign "\x7b" then objectPattern g
  else return .ident (← bindingName) none

/-! ## Decorators and parameters -/

/-- The decorators before a class, a member or a parameter. -/
def decorators (g : Grammar) : Parser (List Decorator) :=
  many (do return !(← isSign "@")) g.decorator

/-- A question mark can stand after the pattern of a parameter. -/
def takesMark : Pattern → Bool
  | .ident _ _ => true
  | .array _ _ => true
  | .object _ _ => true
  | _ => false

/-- The rest of the arguments after its dots. -/
def restParam (g : Grammar) : Parser Pattern := do
  let target ← g.binding
  let target ← if ← eatSign "=" then .withDefault target <$> g.assignment else pure target
  let type ← declaredType g
  discard (eatSign "?")
  return .rest target type

/-- A parameter that stands for one argument. A type after a default is not kept. -/
def singleParam (g : Grammar) : Parser Pattern := do
  discard eatParamModifier
  let pattern ← bindingElement g
  if ← eatSign "?" then check (takesMark pattern || (← settings).ambient)
  let type ← declaredType g
  let pattern := pattern.typed type
  if ← eatSign "=" then return .withDefault pattern (← g.assignment)
  return pattern

/-- A parameter with the decorators before it, where the rest of the arguments and a single one are
    read by the given rules. -/
def decoratedParam (g : Grammar) (rest single : Parser Pattern) : Parser Pattern := do
  let marks ← decorators g
  let pattern ← if ← eatSign "..." then rest else single
  return if marks.isEmpty then pattern else .decorated marks pattern

/-- Parameters read by the given rule, with the parentheses around them. -/
def paramList (param : Parser Pattern) : Parser (List Pattern) := do
  sign "("
  withSettings (fun s => { s with inParams := true }) (listUntil ")" param)

/-- The rule for the parameters of a function. -/
def paramsRule (g : Grammar) : Parser (List Pattern) :=
  paramList (decoratedParam g (restParam g) (singleParam g))

/-- A parameter of a constructor. One that declares a field is a name, perhaps with a default. -/
def constructorParam (g : Grammar) : Parser Pattern := do
  let access ← eatModifier? ["public", "protected", "private", "in", "out"]
  let override ← eatModifier? ["override"]
  let readonly ← eatModifier? ["readonly"]
  let pattern ← singleParam g
  let declares := (access.any fun name => name != "in" && name != "out") || override.isSome ||
    readonly.isSome
  check (!declares || pattern matches .ident _ _ || pattern matches .withDefault _ _)
  return pattern

/-- The parameters of a constructor. -/
def constructorParams (g : Grammar) : Parser (List Pattern) := do
  let rest : Parser Pattern := do
    let target ← g.binding
    return .rest target (← declaredType g)
  paramList (decoratedParam g rest (constructorParam g))

/-! ## Bodies -/

/-- Statements or other items between braces. The end of the source closes them too. -/
def bracedItems (item : Parser Stmt) : Parser (List Stmt) := do
  sign "\x7b"
  inside (many (do return (← eatSign "\x7d") || (← onFinish)) item)

/-- A block of statements. -/
def block (g : Grammar) : Parser (List Stmt) :=
  bracedItems g.listedStmt

/-- The body of a function. A function that is only declared has the end of a statement in place of
    it. -/
def functionBody (g : Grammar) : Parser (Option (List Stmt)) := do
  if !(← isSign "\x7b") && (← eatEnd) then return none
  return some (← block g)

/-- Run a parser inside a function. -/
def insideFunction (isAsync isGenerator : Bool) (p : Parser α) : Parser α :=
  withSettings
    (fun s => { s with inAsync := isAsync, inGenerator := isGenerator, inParams := false }) p

/-- A function after its name: type parameters, parameters, result type and body. -/
def functionRest (g : Grammar) (start : Position) (marks : List Decorator)
    (isAsync isGenerator : Bool) : Parser Function :=
  insideFunction isAsync isGenerator do
    let typeParams ← typeParams g
    let params ← paramsRule g
    let result ← declaredResult g
    return ⟨start, params, marks, ← functionBody g, typeParams, result⟩

/-- A function from its first word on, with its name. -/
def functionNamed (g : Grammar) (start : Position) (marks : List Decorator)
    (name : Parser (Option String)) : Parser (Option String × Function) := do
  let isAsync ← eatWord "async"
  word "function"
  let isGenerator ← eatSign "*"
  let name ← name
  return (name, ← functionRest g start marks isAsync isGenerator)

/-- A name that may be left out. -/
def optionalName : Parser (Option String) := do
  if ← onVariable then some <$> bindingName else return none

/-- A function in an expression. It has a body. -/
def functionExpr (g : Grammar) : Parser Expr := do
  let (_, value) ← functionNamed g (← place) [] optionalName
  check value.body.isSome
  return .function value

/-- The current word is `async`, and `function` follows it on the same line. -/
def onAsyncFunction : Parser Bool := do
  return (← isWord "async") && (← next do return (← isWord "function") && !(← onNewLine))

end ElementCatalog.Source.Grammar
