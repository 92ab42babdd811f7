import ElementCatalog.Source.Grammar.Operands

/-!
# Grammar of accesses and calls

What is accessed, called and created. Type arguments and a comparison start alike; type arguments are
tried first and kept only if what follows them cannot continue a comparison.
-/

namespace ElementCatalog.Source.Grammar

open ElementCatalog.Source.Parser

/-! ## Arguments -/

/-- The arguments of a call, with the parentheses around them. -/
def callArgs (g : Grammar) : Parser (List Expr) := do
  sign "("
  withSettings (fun s => { s with expectsColon := false }) (listUntil ")" (listElement g))

/-- The arguments of a call of the module loader: a module, and perhaps its options. -/
def loaderArgs (g : Grammar) : Parser (List Expr) := do
  let args ← callArgs g
  check (args.length == 1 || args.length == 2)
  return args

/-- The words that start an expression though they are reserved. -/
def leadingWords : List String :=
  [ "this", "super", "null", "true", "false", "function", "class", "new", "delete", "typeof", "void",
    "await", "yield" ]

/-- An expression starts here, where no operator can have two operands. -/
def onExpression : Parser Bool := do
  match ← token with
  | .word "import" => next (isSign "(")
  | .word name => return !reservedWords.contains name || leadingWords.contains name
  | .string _ => return true
  | .number _ => return true
  | .bigint => return true
  | .regex => return true
  | .template => return true
  | .privateName _ => return true
  | .sign text => return ["(", "[", "\x7b", "~", "!", "++", "--"].contains text
  | _ => return false

/-- An expression ends with the type arguments before the cursor. -/
def endsAfterTypeArgs : Parser Bool := do
  if (← isOneOf ["<", ">", "+", "-", "("]) || (← token) matches .template then return false
  if (← onNewLine) || (← binaryOperator?).isSome then return true
  return !(← onExpression)

/-- An expression with type arguments, if there are any and the expression ends with them. -/
def instantiated (g : Grammar) (e : Expr) : Parser Expr := do
  if !(← isSign "<") then return e
  let types ← maybe do
    let types ← typeArgs g
    check (← endsAfterTypeArgs)
    return types
  return match types with
    | some types => .instantiated e types
    | none => e

/-! ## Links -/

/-- The expression is a chain of optional accesses, or the claim that one is not null. -/
def isOptionalChain : Expr → Bool
  | .nonNull inner => isOptionalChain inner
  | .optionalChain _ _ => true
  | _ => false

/-- One more link of a chain: on an optional chain it is optional too. -/
def link (object : Expr) (plain : Expr) (operands : List Expr) : Expr :=
  if isOptionalChain object then .optionalChain (object :: operands) [] else plain

/-- A call of an expression. -/
def called (start : Position) (callee : Expr) (types : List TypeUse) (args : List Expr) : Expr :=
  if isOptionalChain callee then .optionalChain (callee :: args) types
  else .call start callee types args

/-- The key of an access in brackets. -/
def bracketKey (g : Grammar) : Parser Expr := do
  sign "["
  let k ← inside g.expression
  sign "]"
  return k

/-- A template after a tag. Its text pieces may have no value. -/
def tagged (g : Grammar) (tag : Expr) : Parser Expr := do
  let (_, parts) ← templateParts g.expression
  return .other (tag :: parts)

/-- The name after a dot, as an access to an object. -/
def memberOf (object : Expr) : Parser Expr := do
  match ← token with
  | .privateName _ => advance; return link object (.access [object]) []
  | _ =>
    let name ← anyWord
    return link object (.member object name) []

/-- An access after a question mark. -/
def optionalLink (g : Grammar) (keys : Bool) (e : Expr) : Parser Expr := do
  sign "?."
  if ← isSign "<" then
    let types ← typeArgs g
    return .optionalChain (e :: (← callArgs g)) types
  if ← isSign "(" then return .optionalChain (e :: (← callArgs g)) []
  if keys && (← isSign "[") then
    return ← instantiated g (.optionalChain [e, ← bracketKey g] [])
  match ← token with
  | .privateName _ => advance
  | _ => discard anyWord
  instantiated g (.optionalChain [e] [])

/-- Type arguments with what they are given to: a call, a template, or a value that is assigned to or
    asserted. -/
def typedLink (g : Grammar) (calls : Bool) (start : Position) (e : Expr) : Parser (Expr ⊕ Expr) := do
  let types ← typeArgs g
  if calls && (← isSign "(") then return .inl (called start e types (← callArgs g))
  if (← token) matches .template then return .inl (← tagged g (.instantiated e types))
  check ((← isSign "=") || (← isWord "as"))
  return .inr (.instantiated e types)

/-- Accesses and calls on an expression. Calls and keys in brackets may be forbidden. -/
def links (g : Grammar) (calls keys : Bool) (start : Position) (first : Expr) : Parser Expr :=
  loop first fun e => do
    match ← token with
    | .sign "!" =>
      if ← onNewLine then return .inr e
      advance
      return .inl (.nonNull e)
    | .sign "<" => typed e
    | .sign "<<" => typed e
    | .sign "?." => return .inl (← optionalLink g keys e)
    | .sign "[" =>
      if !keys then return .inr e
      let k ← bracketKey g
      return .inl (← instantiated g (link e (.access [e, k]) [k]))
    | .sign "(" =>
      if !calls then return .inr e
      return .inl (called start e [] (← callArgs g))
    | .sign "." =>
      advance
      return .inl (← instantiated g (← memberOf e))
    | .template => return .inl (← tagged g e)
    | _ => return .inr e
where
  /-- Go on with type arguments, or end before a comparison. -/
  typed (e : Expr) : Parser (Expr ⊕ Expr) := do
    match ← maybe (typedLink g calls start e) with
    | some linked => return linked
    | none => return .inr e

/-! ## Starts -/

/-- A member of the base class, or a call of its constructor, after the word `super`. -/
def baseMember (g : Grammar) (calls : Bool) (start : Position) : Parser Expr := do
  match ← token with
  | .sign "(" =>
    check calls
    return .call start (.other []) [] (← callArgs g)
  | .sign "[" =>
    let k ← bracketKey g
    instantiated g (.access [k])
  | .sign "." =>
    advance
    discard anyWord
    instantiated g (.access [])
  | _ => stuck

/-- A call of the module loader, or a fact about the module itself, after the word `import`. -/
def loaderCall (g : Grammar) (start : Position) : Parser Expr := do
  if ← eatSign "." then
    let phase ← anyWord
    if phase == "meta" then return .other []
    check (phase == "defer" || phase == "source")
  return .call start (.other []) [] (← loaderArgs g)

/-- An access that starts with `super` or `import`, if one does. -/
def specialStart? (g : Grammar) (calls : Bool) : Parser (Option Expr) := do
  let start ← place
  if ← eatWord "super" then
    return some (← links g calls true start (← baseMember g calls start))
  if ← eatWord "import" then return some (← links g calls true start (← loaderCall g start))
  return none

/-- A created object after the word `new`. Within another creation the arguments may be left to that
    one. -/
def created (g : Grammar) (start : Position) (nested : Bool) : Parser Expr := do
  let callee ← g.creation true
  if isArrow callee then return callee
  check (!(nested && callee matches .optionalChain _ _))
  let types ←
    if ← onTypeArgs then
      maybe do
        let types ← typeArgs g
        check (← isSign "(")
        return types
    else pure none
  let args ← if ← isSign "(" then some <$> callArgs g else pure none
  let value := Expr.new callee (types.getD []) (args.getD [])
  if args.isNone then return value
  links g false true start value

/-- The rule for operands with accesses but no calls. -/
def creationRule (g : Grammar) (nested : Bool) : Parser Expr := do
  let start ← place
  if ← eatWord "new" then
    if ← eatSign "." then
      word "target"
      return ← links g false true start (.other [])
    return ← created g start nested
  if let some e ← specialStart? g false then return e
  let first ← operand g
  if isArrow first then return first
  links g false true start (← instantiated g first)

/-- The rule for operands with accesses and calls. -/
def accessedRule (g : Grammar) : Parser Expr := do
  if (← isSign "<") && (← settings).markup then
    let parts ← g.element
    advance
    return .other parts
  if let some e ← specialStart? g true then return e
  let start ← place
  let callee ← creationRule g false
  if isArrow callee then return callee
  let types ←
    if ← onTypeArgs then
      maybe do
        let types ← typeArgs g
        check (← isSign "(")
        return types
    else pure none
  if ← isSign "(" then
    let args ← callArgs g
    return ← links g true true start (called start callee (types.getD []) args)
  return callee

/-! ## Names of decorators and inherited types -/

/-- The rule for decorators: an expression in parentheses, or a name with accesses and calls; then
    perhaps arguments. -/
def decoratorRule (g : Grammar) : Parser Decorator := do
  let start ← place
  sign "@"
  let parenthesized ← eatSign "("
  let valueAt ← place
  let value ←
    if parenthesized then do
      let value ← g.expression
      sign ")"
      pure value
    else do
      let name ← bindingName
      links g true false valueAt (.ident name)
  if !(← isOneOf ["<", "("]) then return ⟨start, value⟩
  let types ← if ← isSign "<" then typeArgs g else pure []
  return ⟨start, .call valueAt value types (← callArgs g)⟩

/-- The rule for inherited types: a name with accesses, and its type arguments. -/
def heritageRule (g : Grammar) : Parser Heritage := do
  let start ← place
  let name ← anyWord
  match ← links g false false start (.ident name) with
  | .instantiated value args => return ⟨value, args⟩
  | value => return ⟨value, ← if ← isSign "<" then typeArgs g else pure []⟩

end ElementCatalog.Source.Grammar
