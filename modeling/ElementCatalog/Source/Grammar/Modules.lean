import ElementCatalog.Source.Grammar.Statements

/-!
# Grammar of modules

The rules for imports and exports. The words `type`, `as`, `defer`, `source` and `from` are names
wherever the clause goes on as if they were.
-/

namespace ElementCatalog.Source.Grammar

open ElementCatalog.Source.Parser

/-! ## Sources and names -/

/-- Attributes after the source of an import or export, on the same line. -/
def attributes (g : Grammar) : Parser (Option Expr) := do
  if ((← isWord "with") || (← isWord "assert")) && !(← onNewLine) then
    advance
    some <$> g.object
  else return none

/-- The module that something comes from, with its attributes. -/
def fromModule (g : Grammar) : Parser (StringLiteral × Option Expr) := do
  word "from"
  let source ← stringToken
  let marks ← attributes g
  statementEnd
  return (source, marks)

/-- A name of a module: a word or a string, and whether it is a word. -/
def moduleName : Parser (String × Bool) := do
  match ← token with
  | .string value => advance; return (value.text, false)
  | _ => return (← anyWord, true)

/-- A name in a list of imports or exports, with the other name that the given rule reads for it. The
    words `type` and `as` may each be a mark or a name. -/
def renamed (other : Parser String) : Parser (String × Bool × Option String) := do
  let (name, isWord) ← moduleName
  if name == "type" && isWord && (← onWord) then afterType else plain name isWord
where
  /-- A name with an optional other name for it. -/
  plain (name : String) (isWord : Bool) : Parser (String × Bool × Option String) := do
    if ← eatWord "as" then return (name, isWord, some (← other)) else return (name, isWord, none)
  /-- What follows the word `type`, where another word does. -/
  afterType : Parser (String × Bool × Option String) := do
    let name ← anyWord
    if name != "as" then return ← plain name true
    if !(← onWord) then return ("as", true, some "as")
    let second ← other
    if second == "as" && (← onWord) then return ("as", true, some (← other))
    return ("type", true, some second)

/-- Names between braces. -/
def nameList (name : Parser α) : Parser (List α) := do
  sign "\x7b"
  listUntil "\x7d" name

/-! ## Imports -/

/-- The words that no import binds under their own name, besides the reserved ones. -/
def strictWords : List String :=
  ["enum", "implements", "interface", "package", "private", "protected", "public"]

/-- An imported name. One that is bound under its own name is no reserved word and no string. -/
def importedName : Parser ImportSpecifier := do
  let (imported, isWord, localName) ← renamed bindingName
  match localName with
  | some name => return ⟨name, imported⟩
  | none =>
    check (isWord && !reservedWords.contains imported && !strictWords.contains imported)
    return ⟨imported, imported⟩

/-- An imported namespace. -/
def importedNamespace : Parser ImportSpecifier := do
  sign "*"
  word "as"
  return ⟨← bindingName, "*"⟩

/-- A name for a namespace or a required module, after that name. -/
def importEquals : Parser Stmt := do
  sign "="
  if (← isWord "require") && (← next (isSign "(")) then
    advance
    advance
    discard stringToken
    sign ")"
  else discard (entityName false)
  statementEnd
  return .other []

/-- The names that an import binds, after its default. Only an import that is not split into phases
    has a list of names, and only one without a source phase binds a namespace. -/
def importRest (g : Grammar) (first : List ImportSpecifier) (phase : Option String) :
    Parser Stmt := do
  let more ←
    if phase != some "source" && (← isSign "*") then pure [← importedNamespace]
    else if phase.isNone && (← isSign "\x7b") then nameList importedName
    else pure []
  let (source, marks) ← fromModule g
  return .importFrom (first ++ more) source marks

/-- The name after the word `type` of an import, or that word itself if it is the name. -/
def importedDefault (name : String) : Parser String := do
  if name != "type" || !(← onVariable) then return name
  if !(← isWord "from") || (← next (isWord "from")) then return ← bindingName
  if ← next (isSign "=") then anyWord else return name

/-- An import that starts with a name, after that name. -/
def importAfterName (g : Grammar) (first : String) : Parser Stmt := do
  if first == "type" && (← isOneOf ["*", "\x7b"]) then return ← importRest g [] none
  let name ← importedDefault first
  if ← isSign "=" then return ← importEquals
  if name == "defer" && (← isSign "*") then return ← importRest g [] (some "defer")
  let isPhase := name == "source" && (← onVariable) &&
    (!(← isWord "from") || (← next (isWord "from")))
  let name ← if isPhase then bindingName else pure name
  if !(← isWord "from") then sign ","
  importRest g [⟨name, "default"⟩] (if isPhase then some "source" else none)

/-- An import. -/
def importItem (g : Grammar) : Parser Stmt := do
  word "import"
  if ← onString then
    let source ← stringToken
    let marks ← attributes g
    statementEnd
    return .importFrom [] source marks
  if ← onVariable then importAfterName g (← bindingName) else importRest g [] none

/-! ## Exports -/

/-- An export of a declaration that starts with `declare` or another word of that kind, or one of the
    forms that only exist beside types. -/
def typedExport? (g : Grammar) (start : Position) (marks : List Decorator) :
    Parser (Option Stmt) := do
  let declareAt ← place
  if ← eatWord "declare" then
    if let some decl ← ambientDeclaration? g declareAt marks then
      return some (.exported start decl)
  let here ← place
  if let some (some decl) ← maybe (wordDeclaration? g here marks) then
    return some (.exported start decl)
  if ← eatWord "import" then
    if (← isWord "type") && (← next onWord) then advance
    discard anyWord
    return some (← importEquals)
  if ← eatSign "=" then
    let e ← g.expression
    statementEnd
    return some (.expr e)
  if ← eatWord "as" then
    word "namespace"
    discard bindingName
    statementEnd
    return some (.other [])
  return none

/-- Decorators that stand after the word `export`, where none stand before it. -/
def laterDecorators (g : Grammar) (marks : List Decorator) : Parser (List Decorator) := do
  if !(← isSign "@") then return marks
  check marks.isEmpty
  decorators g

/-- The class of a default export. -/
def defaultClass (g : Grammar) (start here : Position) (marks : List Decorator) : Parser Stmt := do
  let (name, value) ← classNamed g here marks optionalClassName
  return .exportClass start name value

/-- The default export after its words. -/
def defaultExport (g : Grammar) (start : Position) (marks : List Decorator) : Parser Stmt := do
  let marks ← laterDecorators g marks
  let here ← place
  if (← isWord "abstract") && (← next do return (← isWord "class") && !(← onNewLine)) then
    advance
    return ← defaultClass g start here marks
  if (← isWord "abstract") && (← next (isWord "interface")) then advance
  let here ← place
  if ← eatWord "interface" then return .exportInterface start (← interface g here)
  if ← isWord "class" then return ← defaultClass g start here marks
  if (← isWord "function") || (← onAsyncFunction) then
    let (name, value) ← functionNamed g here marks optionalName
    return .exportFunction start name value
  let value ← inside g.assignment
  statementEnd
  return .exportValue start value

/-- A declaration that is exported by its name. -/
def exportedDecl? (g : Grammar) (marks : List Decorator) : Parser (Option Stmt) := do
  let here ← place
  if ← onAsyncFunction then return some (← functionDecl g here marks)
  keywordDeclaration? g true here here marks

/-- A list of exported names. The end of the statement may be missing. -/
def exportedNames (g : Grammar) : Parser Stmt := do
  let names ← nameList (renamed (Prod.fst <$> moduleName))
  let specifiers := names.map fun (inner, _, outer) => ExportSpecifier.mk (outer.getD inner) inner
  if ← isWord "from" then
    let (source, marks) ← fromModule g
    return .exportNames specifiers (some source) marks
  discard eatEnd
  return .exportNames specifiers none none

/-- Everything of another module, under a name or not. -/
def exportedAll (g : Grammar) : Parser Stmt := do
  sign "*"
  if ← eatWord "as" then
    let (name, _) ← moduleName
    let (source, marks) ← fromModule g
    return .exportNames [⟨name, "*"⟩] (some source) marks
  let (source, marks) ← fromModule g
  return .exportAll source marks

/-- An export. Decorators stand before or after its keyword. -/
def exportItem (g : Grammar) (marks : List Decorator) : Parser Stmt := do
  let start ← place
  word "export"
  if let some item ← typedExport? g start marks then return item
  let typeOnly ← eatWord "type"
  if !typeOnly && (← eatWord "default") then return ← defaultExport g start marks
  let marks ← laterDecorators g marks
  if !typeOnly then
    if let some decl ← exportedDecl? g marks then return .exported start decl
  if ← isSign "*" then exportedAll g else exportedNames g

/-- The rule for items of a module. -/
def moduleItemRule (g : Grammar) : Parser Stmt :=
  decoratedStmt g true fun marks => do
    if ← isWord "export" then return ← exportItem g marks
    if ← next (isOneOf ["(", "."]) then loaderStmt g else importItem g

end ElementCatalog.Source.Grammar
