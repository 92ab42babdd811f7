import ElementCatalog.Source.Grammar.Expressions

/-!
# Grammar of declarations

Variables, classes, functions, types, enumerations and namespaces. Words such as `type` or `declare`
start a declaration only if what follows fits; else they are ordinary names.
-/

namespace ElementCatalog.Source.Grammar

open ElementCatalog.Source.Parser

/-! ## Variables -/

/-- One variable of a declaration with a given keyword, perhaps in the head of a loop. A pattern has
    a value, unless the loop supplies it, the variable is ambient, or it is a constant. -/
def declarator (g : Grammar) (keyword : String) (inHead : Bool) : Parser Declarator := do
  let start ← place
  check (keyword == "var" || !(← isWord "let"))
  let pattern ← g.binding
  let isName := pattern matches .ident _ _
  if isName then discard (eatSign "!")
  let target := pattern.typed (← declaredType g)
  if inHead && ((← isWord "of") || (← isWord "in")) then return ⟨start, target, none⟩
  if ← eatSign "=" then return ⟨start, target, some (← g.assignment)⟩
  check (isName || (← settings).ambient || (keyword == "const" && !inHead))
  return ⟨start, target, none⟩

/-- Variables after their keyword. A comma may stand before a semicolon. In the head of a loop the
    values of a `var` cannot use the operator `in`. -/
def declarators (g : Grammar) (keyword : String) (inHead : Bool) : Parser (List Declarator) :=
  withSettings (fun s => { s with allowIn := keyword != "var" || !inHead }) <|
    loop ([] : List Declarator) fun found => do
      if ← isSign ";" then return .inr found.reverse
      let d ← declarator g keyword inHead
      if ← eatSign "," then return .inl (d :: found)
      return .inr (d :: found).reverse

/-- Pass over everything up to the end of the statement. -/
def skipStatement : Parser Unit :=
  loop () fun _ => do
    if ← eatEnd then return .inr ()
    advance
    return .inl ()

/-- Variables from their keyword on. What stands between the last one and the end of the statement
    is passed over. -/
def variableDecl (g : Grammar) (start : Position) : Parser Stmt := do
  let keyword ← anyWord
  let found ← declarators g keyword false
  if !(← eatEnd) then
    discard (recovered g.expression)
    skipStatement
  return .variableDecl start found

/-- What `let` declares stands here; before anything else that word is a name. -/
def onLetTarget : Parser Bool := do
  match ← token with
  | .word name => return !reservedWords.contains name || ["let", "yield", "await"].contains name
  | .sign text => return text == "[" || text == "\x7b"
  | _ => return false

/-! ## Types and enumerations -/

/-- A member of an enumeration. What follows a member without a value is passed over, and the token
    after it is taken for a comma. -/
def enumMember (g : Grammar) : Parser EnumMember := do
  let name ← match ← token with
    | .string value => do
      advance
      pure value.text
    | .number value => do
      advance
      pure (Decimal.plain value)
    | .sign "[" => do
      advance
      let value ← g.expression
      sign "]"
      pure (textOf value)
    | _ => anyWord
  if ← eatSign "=" then return ⟨name, some (← g.assignment)⟩
  if !(← isOneOf [",", "\x7d"]) then
    advance
    modify fun c => { c with token := .sign "," }
  return ⟨name, none⟩
where
  /-- The text that a name in brackets spells. -/
  textOf : Expr → String
    | .string value => value.text
    | .template [some piece] [] => piece.text
    | _ => ""

/-- An enumeration after its keyword. A comma between its members may be missing. -/
def enumeration (g : Grammar) (start : Position) : Parser Stmt := do
  let name ← anyWord
  sign "\x7b"
  let members ← many (eatSign "\x7d") do
    let m ← enumMember g
    discard (eatSign ",")
    return m
  return .enumDecl start name members

/-- An interface after its keyword. A second clause of parents is passed over. -/
def interface (g : Grammar) (start : Position) : Parser InterfaceDecl := do
  let name ← anyWord
  let params ← typeParams g
  let parents ← if ← eatWord "extends" then heritageClause g else pure []
  if ← isWord "extends" then
    loop () fun _ => do
      if (← isSign "\x7b") || (← onFinish) then return .inr ()
      advance
      return .inl ()
  let (members, inner) ← typeMembers g
  return ⟨start, name, params, parents, members, inner⟩

/-- A type alias after its keyword. -/
def typeAlias (g : Grammar) (start : Position) : Parser AliasDecl := do
  let name ← anyWord
  let params ← typeParams g
  sign "="
  let type ← g.type
  statementEnd
  return ⟨start, name, params, type⟩

/-! ## Namespaces -/

/-- A block of module items. -/
def moduleBlock (g : Grammar) : Parser (List Stmt) :=
  bracedItems g.moduleItem

/-- The items of an ambient module after its name, if it has any. -/
def ambientItems (g : Grammar) : Parser Stmt := do
  if ← isSign "\x7b" then return .namespaceDecl (← moduleBlock g)
  statementEnd
  return .namespaceDecl []

/-- A namespace after its keyword. -/
def namespaceNamed (g : Grammar) : Parser Stmt := do
  discard (separated "." anyWord)
  return .namespaceDecl (← moduleBlock g)

/-! ## Classes and functions -/

/-- A class declaration. -/
def classDecl (g : Grammar) (start : Position) (marks : List Decorator) : Parser Stmt := do
  match ← classNamed g start marks (some <$> strictBindingName) with
  | (some name, value) => return .classDecl name value
  | (none, _) => stuck

/-- A function declaration. -/
def functionDecl (g : Grammar) (start : Position) (marks : List Decorator) : Parser Stmt := do
  match ← functionNamed g start marks (some <$> bindingName) with
  | (some name, value) => return .functionDecl name value
  | (none, _) => stuck

/-! ## Declarations by their first word -/

/-- The declaration under the cursor, if its first word alone tells that it is one. Where nothing but
    statements may stand, only `var`, functions and classes are declared. Classes and enumerations
    start at `start`, and all else at `keywordAt`. -/
def keywordDeclaration? (g : Grammar) (declares : Bool) (start keywordAt : Position)
    (marks : List Decorator) : Parser (Option Stmt) := do
  match ← token with
  | .word "class" => some <$> classDecl g start marks
  | .word "function" => some <$> functionDecl g keywordAt marks
  | .word "var" => some <$> variableDecl g keywordAt
  | .word "const" =>
    if ← next (isWord "enum") then
      advance
      advance
      return some (← enumeration g start)
    if declares then some <$> variableDecl g keywordAt else return none
  | .word "let" =>
    if declares && (← next onLetTarget) then some <$> variableDecl g keywordAt else return none
  | _ => return none

/-- The words that start a declaration if what follows them fits. -/
def declaringWords : List String :=
  ["abstract", "enum", "interface", "module", "namespace", "type"]

/-- The declaration that a word starts goes on under the cursor. -/
def declarationFollows (name : String) : Parser Bool := do
  match name with
  | "abstract" => return (← isWord "class") && !(← onNewLine)
  | "enum" => onWord
  | "interface" => onWord
  | "module" => return !(← onNewLine) && ((← onString) || (← onVariable))
  | "namespace" => onVariable
  | "type" => return !(← onNewLine) && (← onVariable)
  | _ => return false

/-- The declaration after the word that starts it. -/
def declarationAfter (g : Grammar) (name : String) (start : Position) (marks : List Decorator) :
    Parser Stmt := do
  match name with
  | "abstract" => classDecl g start marks
  | "enum" => enumeration g start
  | "interface" => return .interfaceDecl (← interface g start)
  | "module" =>
    if ← onString then
      advance
      ambientItems g
    else namespaceNamed g
  | "namespace" => namespaceNamed g
  | "type" => return .aliasDecl (← typeAlias g start)
  | _ => stuck

/-- The declaration that the word under the cursor starts, if it starts one whatever follows. -/
def wordDeclaration? (g : Grammar) (start : Position) (marks : List Decorator) :
    Parser (Option Stmt) := do
  match ← token with
  | .word name =>
    if !declaringWords.contains name || (name == "module" && (← onNewLine)) then return none
    advance
    return some (← declarationAfter g name start marks)
  | _ => return none

/-- The declaration after the word `declare`, if there is one. -/
def ambientDeclaration? (g : Grammar) (start : Position) (marks : List Decorator) :
    Parser (Option Stmt) :=
  withSettings (fun s => { s with ambient := true }) do
    if ← eatWord "global" then return some (← ambientItems g)
    if let some decl ← keywordDeclaration? g true start start marks then return some decl
    wordDeclaration? g start marks

/-- The declaration after a word that has been read as a name, if the word starts one. -/
def namedDeclaration? (g : Grammar) (name : String) (start : Position) (marks : List Decorator) :
    Parser (Option Stmt) := do
  if name == "declare" then return ← ambientDeclaration? g start marks
  if name == "global" && (← isSign "\x7b") then return some (← ambientItems g)
  if ← declarationFollows name then return some (← declarationAfter g name start marks)
  return none

end ElementCatalog.Source.Grammar
