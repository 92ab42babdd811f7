import ElementCatalog.Source.Grammar.Patterns

/-!
# Grammar of classes

The rules for class heads and class members. A member starts at its first decorator or modifier. A
word that could be a modifier is the key of its member if the member goes on right after it.
-/

namespace ElementCatalog.Source.Grammar

open ElementCatalog.Source.Parser

/-! ## Members -/

/-- What is known of a member before its key. -/
structure MemberHead where
  start : Position
  decorators : List Decorator
  /-- The access that is declared, if any. -/
  access : Option String := none
  /-- The first word after the access is `static`. -/
  isStatic : Bool := false
  /-- Modifiers after that. -/
  words : List String := []
  isAccessor : Bool := false

/-- The modifiers that the head gives to its member; a field may be static by a later word. -/
def MemberHead.modifiers (head : MemberHead) (field optional : Bool) : Modifiers :=
  { isStatic := head.isStatic || (field && head.words.contains "static")
    isPublic := head.access != some "private" && head.access != some "protected"
    optional := optional }

/-- A method goes on here. -/
def onMethod : Parser Bool :=
  isOneOf ["(", "<"]

/-- A field goes on or ends here, where it may end like a statement if `loosely` holds. -/
def onField (loosely : Bool) : Parser Bool := do
  if ← isOneOf ["!", ":", "=", "\x7d", ";"] then return true
  if loosely then onEnd else return false

/-- A key names the constructor. -/
def namesConstructor : Key → Bool
  | .ident _ name => name == "constructor"
  | .string _ value => value.value? == some "constructor"
  | _ => false

/-- A method after its key. -/
def method (g : Grammar) (head : MemberHead) (kind : MethodKind) (k : Key)
    (optional isAsync isGenerator : Bool) : Parser ClassMember := do
  let value ← functionRest g head.start head.decorators isAsync isGenerator
  return .method head.start (head.modifiers false optional) kind k value

/-- A field after its key. -/
def field (g : Grammar) (head : MemberHead) (k : Key) (optional : Bool) : Parser ClassMember := do
  check (!namesConstructor k)
  if !optional then discard (eatSign "!")
  let type ← declaredType g
  let value ← if ← eatSign "=" then some <$> inside g.assignment else pure none
  discard eatEnd
  let modifiers := head.modifiers true optional
  if head.isAccessor then return .accessor head.start modifiers head.decorators k type value
  return .field head.start modifiers head.decorators k type value

/-- A member whose key is the word before the cursor, if it goes on as one. -/
def keyedByWord (g : Grammar) (head : MemberHead) (start : Position) (name : String)
    (loosely : Bool) : Parser (Option ClassMember) := do
  let k := Key.ident start name
  if ← onMethod then return some (← method g head .method k false false false)
  if ← onField loosely then return some (← field g head k false)
  return none

/-- The constructor after its key. -/
def initializer (g : Grammar) (head : MemberHead) : Parser ClassMember := do
  insideFunction false false do
    discard (typeParams g)
    let params ← constructorParams g
    discard (declaredType g)
    return .initializer head.start params (← functionBody g)

/-- A block of statements that run when the class is made. -/
def staticBlock (g : Grammar) (start : Position) : Parser ClassMember := do
  return .staticBlock start (← insideFunction false false (block g))

/-- A member with the words `get`, `set` or `async` before its key, or a field or method. -/
def memberFromKey (g : Grammar) (head : MemberHead) : Parser ClassMember := do
  let readonly := head.words.contains "readonly"
  let keyAt ← place
  let k ← if readonly && (← isOneOf ["!", ":"]) then pure (Key.ident keyAt "readonly")
    else classKey g
  let optional ← eatSign "?"
  if ← onMethod then
    check (!readonly)
    if namesConstructor k && !head.isStatic then return ← initializer g head
    return ← method g head .method k optional false false
  let name := match k with
    | .ident _ name => name
    | _ => ""
  let accesses := (name == "get" || name == "set") && !(← onField false) &&
    !((← onNewLine) && (← isSign "*"))
  if !accesses && (← onField true) then return ← field g head k optional
  if name == "async" && !(← onNewLine) then
    discard (eatModifier? ["override"])
    let isGenerator ← eatSign "*"
    let k ← classKey g
    let optional ← if optional then pure true else eatSign "?"
    return ← method g head .method k optional true isGenerator
  check accesses
  method g head (if name == "get" then .getter else .setter) (← classKey g) optional false false

/-- The modifiers that may stand in any order before a key, up to a static block. -/
def laterModifiers : Parser (List String) :=
  loop [] fun found => do
    if (← isWord "static") && (← next (isSign "\x7b")) then return .inr found
    match ← eatModifier? ["abstract", "readonly", "override", "static"] with
    | some name => return .inl (name :: found)
    | none => return .inr found

/-- A member after its access and a first `static`. -/
def memberRest (g : Grammar) (head : MemberHead) : Parser ClassMember := do
  let head := { head with words := ← laterModifiers }
  let accessorAt ← place
  let isAccessor ← eatWord "accessor"
  if isAccessor then
    if let some member ← keyedByWord g head accessorAt "accessor" true then return member
  let head := { head with isAccessor := isAccessor }
  if (head.isStatic || head.words.contains "static") && (← isSign "\x7b") then
    return ← staticBlock g head.start
  if (← isWord "static") && (← next (isSign "\x7b")) then
    advance
    return ← staticBlock g head.start
  if !head.words.contains "abstract" && !head.words.contains "override" && head.access.isNone then
    if ← onIndexSignature then return .other head.start (← indexSignature g)
  if ← eatSign "*" then return ← method g head .method (← classKey g) false false true
  memberFromKey g head

/-- A member of a class. The word `declare` may stand before or after the access. -/
def classMember (g : Grammar) : Parser ClassMember := do
  let start ← place
  if ← eatSign ";" then return .other start []
  let marks ← decorators g
  let declareAt ← place
  let first ← eatWord "declare"
  let access ← eatModifier? ["public", "protected", "private", "in", "out"]
  let declared ← if first then pure true else eatWord "declare"
  let head : MemberHead :=
    { start := start, decorators := marks
      access := access.filter fun name => name != "in" && name != "out" }
  if declared then
    if let some member ← keyedByWord g head declareAt "declare" true then return member
  let staticAt ← place
  let isStatic ← eatWord "static"
  if isStatic then
    if let some member ← keyedByWord g head staticAt "static" false then return member
  memberRest g { head with isStatic := isStatic }

/-- The members of a class, with the braces around them. -/
def classBody (g : Grammar) : Parser (List ClassMember) := do
  sign "\x7b"
  many (eatSign "\x7d") (classMember g)

/-! ## Heads -/

/-- A clause of inherited types, up to the next clause or the members. -/
def heritageClause (g : Grammar) : Parser (List Heritage) :=
  let ends : Parser Bool := do
    return (← isSign "\x7b") || (← isWord "implements") || (← isWord "extends")
  loop ([] : List Heritage) fun found => do
    if ← ends then return .inr found.reverse
    let h ← g.heritage
    if ← eatSign "," then return .inl (h :: found)
    check (← ends)
    return .inr (h :: found).reverse

/-- A base class with its type arguments. -/
def baseClass (g : Grammar) : Parser (Expr × List TypeUse) := do
  match ← g.accessed with
  | .instantiated value args => return (value, args)
  | value => return (value, ← if ← isSign "<" then typeArgs g else pure [])

/-- A clause with a base class. -/
def extendsClause (g : Grammar) : Parser (Option (Expr × List TypeUse)) := do
  if ← eatWord "extends" then some <$> baseClass g else return none

/-- A clause with implemented types. -/
def implementsClause (g : Grammar) : Parser (Option (List Heritage)) := do
  if ← eatWord "implements" then some <$> heritageClause g else return none

/-- What a class head says after the name of the class. -/
structure ClassHead where
  base : Option (Expr × List TypeUse)
  implemented : List Heritage

/-- The clauses of a class head. The first base class and the first clause of implemented types
    count; a base class may also come last. -/
def classHead (g : Grammar) : Parser ClassHead := do
  let base ← extendsClause g
  if base.isSome && (← eatSign ",") then discard (heritageClause g)
  discard (extendsClause g)
  let implemented ← implementsClause g
  discard (implementsClause g)
  let late ← extendsClause g
  return ⟨base.or late, implemented.getD []⟩

/-- A class from its keyword on, with its name. -/
def classNamed (g : Grammar) (start : Position) (marks : List Decorator)
    (name : Parser (Option String)) : Parser (Option String × ClassDef) := do
  word "class"
  let name ← name
  let params ← typeParams g
  let head ← classHead g
  let superArgs := (head.base.map Prod.snd).getD []
  let members ← classBody g
  return (name,
    ⟨start, marks, params, head.base.map Prod.fst, superArgs, head.implemented, members⟩)

/-- The name of a class that may have none. The words of its head are no names. -/
def optionalClassName : Parser (Option String) := do
  if (← isWord "implements") && !(← next (isSign "\x7b")) then return none
  if ← onVariable then some <$> strictBindingName else return none

end ElementCatalog.Source.Grammar
