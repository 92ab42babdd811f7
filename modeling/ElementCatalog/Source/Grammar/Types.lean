import ElementCatalog.Source.Cursor
import ElementCatalog.Source.Literal

/-!
# Grammar of types

The rules for type expressions, type parameters and the members of object types. A rule is a parser
over a grammar of smaller depth, which supplies the nested types, patterns and expressions. With a
type come the parameters and expressions inside it, in the order in which they are visited.
-/

namespace ElementCatalog.Source.Grammar

open ElementCatalog.Source.Parser

/-! ## Names and modifiers -/

/-- A key can follow the current word on the same line, which then is a modifier of it. -/
def keyFollows : Parser Bool :=
  next do
    if ← onNewLine then return false
    match ← token with
    | .word _ => return true
    | .string _ => return true
    | .number _ => return true
    | .bigint => return true
    | .privateName _ => return true
    | .sign text => return ["[", "\x7b", "*", "..."].contains text
    | _ => return false

/-- Pass over a word if it is one of the given modifiers of a key. -/
def eatModifier? (names : List String) : Parser (Option String) := do
  match ← token with
  | .word name =>
    if names.contains name && (← keyFollows) then
      advance
      return some name
    return none
  | _ => return none

/-- Pass over a word that makes a field of a parameter, if a name or a pattern follows it. -/
def eatParamModifier : Parser Bool := do
  match ← token with
  | .word name =>
    if ["public", "protected", "private", "readonly"].contains name &&
        (← next do return !(← onNewLine) && ((← onWord) || (← isOneOf ["\x7b", "["]))) then
      advance
      return true
    return false
  | _ => return false

/-- A name with the namespaces before it, where the names in namespaces may be reserved words or
    not. A dot without a name after it ends the name. -/
def entityName (reserved : Bool) : Parser EntityName := do
  let first ← anyWord
  loop (EntityName.ident first) fun name => do
    if !(← eatSign ".") then return .inr name
    match ← token with
    | .word right =>
      check (reserved || !reservedWords.contains right || ["this", "let"].contains right)
      advance
      return .inl (.qualified name right)
    | .privateName _ => stuck
    | _ => return .inr name

/-! ## Type uses -/

/-- A type use with its type changed. -/
def retyped (change : TypeExpr → TypeExpr) (a : TypeUse) : TypeUse :=
  ⟨change a.type, a.inner⟩

/-- What several type uses hold. -/
def innerOf (uses : List TypeUse) : List Pattern :=
  uses.flatMap (·.inner)

/-- Several types made into one. -/
def combined (combine : List TypeExpr → TypeExpr) (uses : List TypeUse) : TypeUse :=
  ⟨combine (uses.map (·.type)), innerOf uses⟩

/-- What a type use that may be missing holds. -/
def innerOf? (use : Option TypeUse) : List Pattern :=
  (use.map (·.inner)).getD []

/-- What type parameters hold. -/
def innerOfParams (params : List TypeParam) : List Pattern :=
  params.flatMap (·.inner)

/-- The type after a colon, if there is one. -/
def declaredType (g : Grammar) : Parser (Option TypeUse) := do
  if ← eatSign ":" then some <$> g.type else return none

/-! ## Arguments and parameters of types -/

/-- Take a doubled opening bracket for the first of its halves. -/
def splitOpening : Parser Unit := do
  if ← isSign "<<" then modify (·.retake (.sign "<") 1)

/-- The cursor stands on the bracket that opens type arguments. -/
def onTypeArgs : Parser Bool :=
  isOneOf ["<", "<<"]

/-- The type arguments of a name. -/
def typeArgs (g : Grammar) : Parser (List TypeUse) := do
  splitOpening
  sign "<"
  listUntil ">" g.type

/-- A type parameter. Modifiers before its name are passed over. -/
def typeParam (g : Grammar) : Parser (TypeParam × Bool) := do
  loop () fun _ => do
    match ← eatModifier? ["public", "private", "protected", "readonly", "abstract", "const",
      "override", "in", "out"] with
    | some _ => return .inl ()
    | none => return .inr ()
  let name ← anyWord
  let constraint ← if ← eatWord "extends" then some <$> g.type else pure none
  let default ← if ← eatSign "=" then some <$> g.type else pure none
  return (⟨name, default.map (·.type), innerOf? constraint ++ innerOf? default⟩, constraint.isSome)

/-- The type parameters of a declaration that may have none. -/
def typeParams (g : Grammar) : Parser (List TypeParam) := do
  if ← eatSign "<" then (·.map Prod.fst) <$> listUntil ">" (typeParam g) else return []

/-- The type parameters of an arrow function. Where markup may stand, a single one without a
    constraint needs a comma, since it would be a tag. -/
def arrowTypeParams (g : Grammar) : Parser (List TypeParam) := do
  sign "<"
  let (params, comma) ← listWithComma ">" (typeParam g)
  if (← settings).markup then check (comma || !(params matches [(_, false)]))
  return params.map Prod.fst

/-! ## Functions -/

/-- What a type says about the result of a function: a type, or a predicate on an argument. -/
def resultType (g : Grammar) : Parser TypeUse := do
  let asserted := (← isWord "asserts") && (← next onVariable)
  if asserted then advance
  let tested := (← onVariable) && (← next do return (← isWord "is") && !(← onNewLine))
  if !asserted && !tested then return ← g.type
  advance
  if !tested then return ⟨.predicate, []⟩
  advance
  return retyped (fun _ => .predicate) (← g.type)

/-- The result type after a colon, if there is one. -/
def declaredResult (g : Grammar) : Parser (Option TypeUse) := do
  if ← eatSign ":" then some <$> resultType g else return none

/-- The parameters of a signature. None has a default. -/
def signatureParams (g : Grammar) : Parser (List Pattern) := do
  let params := (← g.params).map Pattern.undecorated
  check (params.all fun p => !(p matches .withDefault _ _))
  return params

/-- The declared type of the first of some parameters. -/
def firstType? (params : List Pattern) : Option TypeExpr :=
  params.head?.bind Pattern.declared?

/-- A parenthesis opens the parameters of a function type, and not a type. -/
def opensSignature (g : Grammar) : Parser Bool :=
  ahead do
    sign "("
    if ← isOneOf [")", "..."] then return true
    discard eatParamModifier
    if ← onWord then advance
    else
      check (← isOneOf ["\x7b", "["])
      discard g.binding
    if ← isOneOf [":", ",", "?", "="] then return true
    return (← eatSign ")") && (← isSign "=>")

/-- A function type starts here. -/
def onFunctionType (g : Grammar) : Parser Bool := do
  if ← isSign "<" then return true
  return (← isSign "(") && (← opensSignature g)

/-- A function type, made from the declared type of its first parameter. -/
def functionType (g : Grammar) (make : Option TypeExpr → TypeExpr) : Parser TypeUse := do
  let typeParams ← typeParams g
  let params ← signatureParams g
  sign "=>"
  let result ← resultType g
  return ⟨make (firstType? params), params ++ innerOfParams typeParams ++ result.inner⟩

/-! ## Members of object types -/

/-- The end of a member: a comma, a semicolon, or nothing at the end of a line or of the members. -/
def memberEnd : Parser Unit := do
  if !(← eatSign ",") then statementEnd

/-- The key of a member of an object type, with what it holds. A text or a number may have accesses
    after it. -/
def memberKey (g : Grammar) : Parser (MemberKey × List Pattern) := do
  match ← token with
  | .sign "[" =>
    advance
    let value ← g.assignment
    sign "]"
    return (.ofExpr true value, [.expr value])
  | .string _ => spelled
  | .number _ => spelled
  | .privateName _ => advance; return (.literal none, [])
  | _ => return (.ident (← anyWord) false, [])
where
  /-- A key that starts with a literal. -/
  spelled : Parser (MemberKey × List Pattern) := do
    let value ← g.creation false
    return (.ofExpr false value, [.expr value])

/-- An index signature starts here: a name in brackets with a colon or a comma after it. -/
def onIndexSignature : Parser Bool :=
  ahead do
    sign "["
    check (← onVariable)
    advance
    isOneOf [":", ","]

/-- An index signature, as what it holds. -/
def indexSignature (g : Grammar) : Parser (List Pattern) := do
  sign "["
  let name ← anyWord
  if !(← eatSign ",") then sign ":"
  let index ← g.type
  sign "]"
  let type ← declaredType g
  memberEnd
  return .ident name (some index) :: innerOf? type

/-- The parameters and the result of a signature after its name, as the declared type of the first
    parameter and what it holds. -/
def signatureRest (g : Grammar) : Parser (Option TypeExpr × List Pattern) := do
  let typeParams ← typeParams g
  let params ← signatureParams g
  let result ← declaredResult g
  memberEnd
  return (firstType? params, params ++ innerOf? result ++ innerOfParams typeParams)

/-- A getter or a setter. -/
def accessorSignature (g : Grammar) : Parser (TypeMember × List Pattern) := do
  let start ← place
  let getter ← eatWord "get"
  if !getter then word "set"
  let (k, inner) ← memberKey g
  if getter then
    sign "("
    sign ")"
    let type ← declaredType g
    memberEnd
    return (.getter start k (type.map (·.type)), inner ++ innerOf? type)
  else
    let params ← signatureParams g
    check (!params.isEmpty)
    memberEnd
    return (.other, inner ++ params.take 1)

/-- A property or a method after its modifiers. -/
def namedSignature (g : Grammar) (start : Position) (readonly : Bool) :
    Parser (TypeMember × List Pattern) := do
  let (k, inner) ← memberKey g
  let optional ← eatSign "?"
  if ← isOneOf ["(", "<"] then
    check (!readonly)
    let (parameter, more) ← signatureRest g
    return (.method start k optional parameter, inner ++ more)
  else
    let type ← declaredType g
    memberEnd
    return (.property start k optional (type.map (·.type)), inner ++ innerOf? type)

/-- A member of an object type, with what it holds. -/
def typeMember (g : Grammar) : Parser (TypeMember × List Pattern) := do
  let start ← place
  if (← isWord "new") && (← next (isOneOf ["(", "<"])) then
    advance
    return (.other, (← signatureRest g).2)
  if ← isOneOf ["(", "<"] then return (.other, (← signatureRest g).2)
  let readonly := (← eatModifier? ["readonly"]).isSome
  if ← onIndexSignature then return (.other, ← indexSignature g)
  if !readonly then
    if let some member ← maybe (accessorSignature g) then return member
  namedSignature g start readonly

/-- The members of an object type, with the braces around them, and what they hold. -/
def typeMembers (g : Grammar) : Parser (List TypeMember × List Pattern) := do
  sign "\x7b"
  let members ← many (eatSign "\x7d") (typeMember g)
  return (members.map Prod.fst, members.flatMap Prod.snd)

/-- A mapped type starts here. -/
def onMappedType : Parser Bool :=
  ahead do
    sign "\x7b"
    if (← eatSign "+") || (← eatSign "-") then return ← isWord "readonly"
    discard (eatWord "readonly")
    sign "["
    check (← onVariable)
    advance
    isWord "in"

/-- A mapped type. -/
def mappedType (g : Grammar) : Parser TypeUse := do
  sign "\x7b"
  if (← eatSign "+") || (← eatSign "-") then word "readonly" else discard (eatWord "readonly")
  sign "["
  discard anyWord
  word "in"
  let keys ← g.type
  let names ← if ← eatWord "as" then some <$> g.type else pure none
  sign "]"
  if (← eatSign "+") || (← eatSign "-") then sign "?" else discard (eatSign "?")
  let type ← declaredType g
  statementEnd
  sign "\x7d"
  return ⟨.mapped, keys.inner ++ innerOf? names ++ innerOf? type⟩

/-! ## Templates -/

/-- The parts of a template between its quotes, read by the given rule: the values of its text
    pieces and its substitutions. -/
def templateParts (substitution : Parser α) :
    Parser (List (Option StringLiteral) × List α) := do
  let opens ← match ← token with
    | .template => pure true
    | _ => pure false
  check opens
  let (pieces, parts) ← loop ([], []) fun (pieces, parts) => do
    let (codes, ending) ← piece
    let pieces := codes.map StringLiteral.ofCodes :: pieces
    match ending with
    | .quote => return .inr (pieces.reverse, parts.reverse)
    | .substitution =>
      advance
      let part ← inside substitution
      check (← isSign "\x7d")
      return .inl (pieces, part :: parts)
  advance
  return (pieces, parts)
where
  /-- Scan the text piece after the cursor, and stand on the sign that ends it. -/
  piece : Parser (Option (List Nat) × PieceEnd) := do
    let c ← get
    match scanPiece 0 c.rest with
    | none => stuck
    | some (codes, ending, n) =>
      let mark := match ending with
        | .quote => Token.sign "quote"
        | .substitution => Token.sign "$\x7b"
      set { c with token := mark, rest := c.rest.drop n, restAt := c.restAt.past n c.rest }
      return (codes, ending)

/-- The parts of a template that stands for itself: all its text pieces have a value. -/
def plainTemplate (substitution : Parser α) :
    Parser (List (Option StringLiteral) × List α) := do
  let (pieces, parts) ← templateParts substitution
  check (pieces.all Option.isSome)
  return (pieces, parts)

/-! ## Types -/

/-- The built-in type that a word names. -/
def keywordType? (name : String) : Option TypeKeyword :=
  match name with
  | "string" => some .string
  | "number" => some .number
  | "bigint" => some .bigint
  | "boolean" => some .boolean
  | "null" => some .null
  | "undefined" => some .undefined
  | "void" => some .void
  | "object" => some .object
  | "any" => some .other
  | "unknown" => some .other
  | "never" => some .other
  | "symbol" => some .other
  | "intrinsic" => some .other
  | _ => none

/-- An element of a tuple. A label does not matter, but a labelled rest element is read as the type
    after its label. -/
def tupleElement (g : Grammar) : Parser TypeUse := do
  discard (maybe do
    discard (eatSign "...")
    discard anyWord
    discard (eatSign "?")
    sign ":")
  if ← eatSign "..." then return retyped .rest (← g.type)
  let type ← g.type
  if ← eatSign "?" then return retyped .optional type
  return type

/-- In a tuple only optional elements and rests follow an optional element. -/
def tupleInOrder (elements : List TypeExpr) : Bool :=
  (elements.dropWhile fun e => !(e matches .optional _)).all fun e =>
    e matches .optional _ || e matches .rest _

/-- A tuple. -/
def tupleType (g : Grammar) : Parser TypeUse := do
  sign "["
  let elements ← listUntil "]" (tupleElement g)
  check (tupleInOrder (elements.map (·.type)))
  return combined .tuple elements

/-- A type of another module: `import("…").A`. -/
def importedType (g : Grammar) : Parser TypeUse := do
  word "import"
  sign "("
  advance
  let attributes ←
    if (← eatSign ",") && (← isSign "\x7b") then do
      advance
      word "with"
      sign ":"
      let value ← g.object
      discard (eatSign ",")
      sign "\x7d"
      pure [Pattern.expr value]
    else pure []
  sign ")"
  if ← eatSign "." then discard (entityName false)
  let args ← if ← isSign "<" then typeArgs g else pure []
  return ⟨.other, innerOf args ++ attributes⟩

/-- The type of a value: `typeof a.b`. Arguments stand on the same line. -/
def queriedType (g : Grammar) : Parser TypeUse := do
  word "typeof"
  let named ← if ← isWord "import" then importedType g
    else do
      discard (entityName true)
      pure ⟨.other, []⟩
  let args ← if !(← onNewLine) && (← isSign "<") then typeArgs g else pure []
  return ⟨.other, named.inner ++ innerOf args⟩

/-- The type of the object that a method belongs to, or a predicate on it. -/
def selfType (g : Grammar) (asserted : Bool) : Parser TypeUse := do
  word "this"
  if (← isWord "is") && (asserted || !(← onNewLine)) then
    advance
    return retyped (fun _ => .predicate) (← g.type)
  return ⟨if asserted then .predicate else .other, []⟩

/-- A reference to a named type. Arguments stand on the same line. -/
def referenceType (g : Grammar) : Parser TypeUse := do
  discard eatParamModifier
  let name ← entityName true
  let args ← if !(← onNewLine) && (← onTypeArgs) then typeArgs g else pure []
  return combined (.reference name) args

/-- A type that starts with a word. -/
def wordType (g : Grammar) (name : String) : Parser TypeUse := do
  match name with
  | "true" => advance; return ⟨.literal (.boolean true), []⟩
  | "false" => advance; return ⟨.literal (.boolean false), []⟩
  | "this" => selfType g false
  | "typeof" => queriedType g
  | "import" => importedType g
  | _ =>
    if name == "asserts" && (← next (isWord "this")) then
      advance
      return ← selfType g true
    check (!reservedWords.contains name ||
      ["void", "yield", "null", "await", "break"].contains name)
    match keywordType? name with
    | some keyword =>
      if ← next (isSign ".") then referenceType g
      else
        advance
        return ⟨.keyword keyword, []⟩
    | none => referenceType g

/-- A type without operators around it. -/
def simpleType (g : Grammar) : Parser TypeUse := do
  match ← token with
  | .string value => literal (.string value)
  | .number value => literal (.number value)
  | .bigint => literal .bigint
  | .template =>
    let (_, parts) ← plainTemplate g.type
    return ⟨.literal .template, innerOf parts⟩
  | .word name => wordType g name
  | .sign "-" =>
    advance
    match ← token with
    | .number value => literal (.number (-value))
    | .bigint => literal .bigint
    | _ => stuck
  | .sign "\x7b" =>
    if ← onMappedType then mappedType g
    else
      let (members, inner) ← typeMembers g
      return ⟨.object members, inner⟩
  | .sign "[" => tupleType g
  | .sign "(" =>
    advance
    let type ← g.type
    sign ")"
    return retyped .paren type
  | _ => stuck
where
  /-- A literal under the cursor. -/
  literal (value : TypeLiteral) : Parser TypeUse := do
    advance
    return ⟨.literal value, []⟩

/-- A type with brackets after it on the same line. -/
def suffixedType (g : Grammar) : Parser TypeUse := do
  let first ← simpleType g
  loop first fun type => do
    if ← onNewLine then return .inr type
    if !(← eatSign "[") then return .inr type
    if ← eatSign "]" then return .inl (retyped .array type)
    let index ← g.type
    sign "]"
    return .inl ⟨.indexed type.type index.type, type.inner ++ index.inner⟩

/-- A name bound inside a conditional type, with an optional constraint. Where a conditional type is
    allowed, a question mark after the constraint makes it a condition instead. -/
def boundType (g : Grammar) : Parser TypeUse := do
  word "infer"
  discard anyWord
  let constraint ← maybe do
    word "extends"
    let type ← g.plainType
    check (!(← settings).allowConditional || !(← isSign "?"))
    return type
  return ⟨.other, innerOf? constraint⟩

/-- The operators of types with one operand. -/
def typeOperators : List String :=
  ["keyof", "unique", "readonly"]

/-- A type with operators before it. The operators may repeat. -/
def prefixedType (g : Grammar) : Parser TypeUse := do
  let operators ← loop ([] : List String) fun found => do
    match ← token with
    | .word name =>
      if typeOperators.contains name then
        advance
        return .inl (name :: found)
      return .inr found
    | _ => return .inr found
  let inner ← if ← isWord "infer" then boundType g else suffixedType g
  return operators.foldl
    (fun type name => retyped
      (fun t => if name == "keyof" then .keyof t else if name == "readonly" then .readonly t
        else .other) type)
    inner

/-- Types joined by a sign; one before the first of them does not matter. -/
def joinedTypes (mark : String) (item : Parser TypeUse)
    (join : List TypeExpr → TypeExpr) : Parser TypeUse := do
  discard (eatSign mark)
  match ← separated mark item with
  | [type] => return type
  | types => return combined join types

/-- The rule for types that are no conditions: a function, a constructor, or a union. -/
def plainTypeRule (g : Grammar) : Parser TypeUse := do
  if ← onFunctionType g then return ← functionType g .function
  if (← isWord "new") || ((← isWord "abstract") && (← next (isWord "new"))) then
    discard (eatWord "abstract")
    word "new"
    return ← functionType g fun _ => .other
  joinedTypes "|" (joinedTypes "&" (prefixedType g) .intersection) .union

/-- The rule for types. -/
def typeRule (g : Grammar) : Parser TypeUse :=
  withSettings (fun s => { s with allowConditional := true }) do
    let type ← plainTypeRule g
    if (← onNewLine) || !(← eatWord "extends") then return type
    let base ← withSettings (fun s => { s with allowConditional := false }) g.plainType
    sign "?"
    let yes ← g.type
    sign ":"
    let no ← g.type
    return ⟨.other, innerOf [type, base, yes, no]⟩

end ElementCatalog.Source.Grammar
