import ElementCatalog.Source.Grammar.Declarations

/-!
# Grammar of statements

The rules for statements. Where only one statement may stand, as after the head of a loop, neither
constants nor `let` can be declared. Decorators may stand before any statement, but only classes and
functions keep them.
-/

namespace ElementCatalog.Source.Grammar

open ElementCatalog.Source.Parser

/-! ## Conditions and loops -/

/-- An expression in parentheses. -/
def parenthesized (g : Grammar) : Parser Expr := do
  sign "("
  let e ← inside g.expression
  sign ")"
  return e

/-- A block as a statement. -/
def blockStmt (g : Grammar) : Parser Stmt := do
  return .other (← block g)

/-- A conditional statement. -/
def ifStmt (g : Grammar) : Parser Stmt := do
  let test ← parenthesized g
  let yes ← g.stmt
  let no ← if ← eatWord "else" then (fun s => [s]) <$> g.stmt else pure []
  return .other ([.expr test, yes] ++ no)

/-- A loop with its condition first, or a statement that looks into an object. -/
def whileStmt (g : Grammar) : Parser Stmt := do
  let test ← parenthesized g
  return .other [.expr test, ← g.stmt]

/-- A loop with its condition last. The condition is the first of its parts all the same. -/
def doStmt (g : Grammar) : Parser Stmt := do
  let body ← g.stmt
  word "while"
  let test ← parenthesized g
  discard eatEnd
  return .other [.expr test, body]

/-! ## Counting loops and visits -/

/-- The word before the values that a loop visits. -/
def onVisitWord : Parser Bool := do
  return (← isWord "of") || (← isWord "in")

/-- The values that a loop visits, and whether they are visited one by one or by their keys. -/
def visited (g : Grammar) : Parser (Expr × Bool) := do
  if ← eatWord "of" then return (← inside g.assignment, true)
  word "in"
  return (← inside g.expression, false)

/-- The head of a loop that visits values, after what it sets. -/
def visitHead (g : Grammar) (target : Stmt) : Parser (List Stmt × Bool) := do
  let (values, oneByOne) ← visited g
  return ([target, .expr values], oneByOne)

/-- The head of a loop that counts, after what it starts with. -/
def countHead (g : Grammar) (first : List Stmt) : Parser (List Stmt × Bool) := do
  let test ← if ← isSign ";" then pure [] else (fun e => [Stmt.expr e]) <$> inside g.expression
  sign ";"
  let update ← if ← isSign ")" then pure [] else (fun e => [Stmt.expr e]) <$> inside g.expression
  return (first ++ test ++ update, false)

/-- The head of a loop that declares variables. Before the values of a visit the variable may be
    missing. -/
def declaringHead (g : Grammar) : Parser (List Stmt × Bool) := do
  let start ← place
  let keyword ← anyWord
  let nothing ← if ← onVisitWord then
      ahead do
        advance
        discard g.assignment
        isSign ")"
    else pure false
  let found ← if nothing then pure [] else declarators g keyword true
  if ← onVisitWord then return ← visitHead g (.variableDecl start found)
  sign ";"
  countHead g [.variableDecl start found]

/-- The expression is the word that declares resources, perhaps waited for. -/
def namesResources : Expr → Bool
  | .ident name => name == "using"
  | .awaited (.ident name) => name == "using"
  | _ => false

/-- The head of a loop that starts with an expression. -/
def expressionHead (g : Grammar) : Parser (List Stmt × Bool) := do
  let first ← withSettings (fun s => { s with allowIn := false }) g.expression
  if namesResources first && !(← isWord "of") && (← next onVisitWord) then
    let start ← place
    let name ← bindingName
    return ← visitHead g (.resources [⟨start, .ident name none, none⟩])
  if ← onVisitWord then
    match assignedOf? first with
    | some target => return ← visitHead g (.target target)
    | none => stuck
  sign ";"
  countHead g [.expr first]

/-- The head of a loop: its parts, and whether values are visited one by one. -/
def loopHead (g : Grammar) : Parser (List Stmt × Bool) := do
  let declares ← match ← token with
    | .word "const" => pure true
    | .word "var" => pure true
    | .word "let" => next onLetTarget
    | _ => pure false
  if declares then return ← declaringHead g
  if ← eatSign ";" then return ← countHead g []
  expressionHead g

/-- A loop with a head in parentheses. Only values that are visited one by one can be waited for. -/
def forStmt (g : Grammar) : Parser Stmt := do
  let waits ← eatWord "await"
  sign "("
  let (head, oneByOne) ← withSettings (fun s => { s with inLoopHead := true }) (loopHead g)
  check (!waits || oneByOne)
  sign ")"
  return .other (head ++ [← g.stmt])

/-! ## Choices and failures -/

/-- The statements of a case, up to the next one. -/
def caseBody (g : Grammar) : Parser (List Stmt) :=
  many (do return (← isWord "case") || (← isWord "default") || (← isSign "\x7d")) g.listedStmt

/-- The cases of a choice. Only one of them may be the default. -/
def switchCases (g : Grammar) : Parser (List Stmt) :=
  loop (([], false) : List Stmt × Bool) fun (parts, defaulted) => do
    if ← eatSign "\x7d" then return .inr parts
    if ← eatWord "case" then
      let test ← withSettings (fun s => { s with inCase := true }) (inside g.expression)
      sign ":"
      return .inl (parts ++ .expr test :: (← caseBody g), defaulted)
    word "default"
    check (!defaulted)
    sign ":"
    return .inl (parts ++ (← caseBody g), true)

/-- A choice among cases. -/
def switchStmt (g : Grammar) : Parser Stmt := do
  let subject ← parenthesized g
  sign "\x7b"
  return .other (.expr subject :: (← switchCases g))

/-- What handles a failure, if anything does. -/
def handler (g : Grammar) : Parser (List Stmt) := do
  if !(← eatWord "catch") then return []
  let target ←
    if ← eatSign "(" then do
      let pattern ← g.binding
      let type ← declaredType g
      sign ")"
      pure [Stmt.target (pattern.typed type)]
    else pure []
  return target ++ [← blockStmt g]

/-- What is done in the end, if anything is. -/
def finalizer (g : Grammar) : Parser (List Stmt) := do
  if ← eatWord "finally" then return [← blockStmt g] else return []

/-- A statement that handles failures. What handles them may be missing. -/
def tryStmt (g : Grammar) : Parser Stmt := do
  let body ← blockStmt g
  let handled ← handler g
  return .other (body :: handled ++ (← finalizer g))

/-- The handling of failures that cannot come, with nothing to try before it. It holds nothing. -/
def strayHandler (g : Grammar) : Parser Stmt := do
  discard (recovered (handler g))
  discard (recovered (finalizer g))
  return .other []

/-! ## Jumps -/

/-- A statement that leaves a function, with the value it hands back. -/
def returnStmt (g : Grammar) : Parser Stmt := do
  let value ← if ← onEnd then pure none else some <$> inside g.expression
  statementEnd
  return .returned value

/-- A statement that leaves or repeats a loop, with an optional label. -/
def jumpStmt : Parser Stmt := do
  if ← eatEnd then return .other []
  discard bindingName
  statementEnd
  return .other []

/-- A statement that fails with a value. -/
def throwStmt (g : Grammar) : Parser Stmt := do
  check (!(← onNewLine))
  let value ← inside g.expression
  statementEnd
  return .expr value

/-! ## Statements by their first word -/

/-- The statement that a word of control starts, if the word under the cursor is one. -/
def controlStmt? (g : Grammar) : Parser (Option Stmt) := do
  match ← token with
  | .word "if" => after (ifStmt g)
  | .word "for" => after (forStmt g)
  | .word "while" => after (whileStmt g)
  | .word "with" => after (whileStmt g)
  | .word "do" => after (doStmt g)
  | .word "switch" => after (switchStmt g)
  | .word "try" => after (tryStmt g)
  | .word "catch" => some <$> strayHandler g
  | .word "finally" => some <$> strayHandler g
  | .word "return" => after (returnStmt g)
  | .word "throw" => after (throwStmt g)
  | .word "break" => after jumpStmt
  | .word "continue" => after jumpStmt
  | .word "debugger" => after (do statementEnd; return .other [])
  | _ => return none
where
  /-- The rest of a statement after its first word. -/
  after (rest : Parser Stmt) : Parser (Option Stmt) := do
    advance
    some <$> rest

/-- The word `using` is under the cursor, and declares a variable on the same line. -/
def onUsing : Parser Bool := do
  return (← isWord "using") && (← next do return (← onVariable) && !(← onNewLine))

/-- Resources that are released at the end of their block. -/
def usingStmt (g : Grammar) : Parser Stmt := do
  discard (eatWord "await")
  word "using"
  return .resources (← declarators g "var" false)

/-- The current word is followed by another one on the same line. -/
def wordIsNext : Parser Bool :=
  next do return (← onWord) && !(← onNewLine)

/-- The declaration under the cursor, if its first words tell that it is one. -/
def declaration? (g : Grammar) (declares : Bool) (start : Position) (marks : List Decorator) :
    Parser (Option Stmt) := do
  let here ← place
  if let some decl ← keywordDeclaration? g declares start here marks then return some decl
  if ← onAsyncFunction then return some (← functionDecl g here marks)
  if declares then
    if (← onUsing) || ((← isWord "await") && (← next onUsing)) then return some (← usingStmt g)
  match ← token with
  | .word name =>
    if ["interface", "type", "enum"].contains name && (← wordIsNext) then
      advance
      return some (← declarationAfter g name here marks)
    return none
  | _ => return none

/-- What a name at the start of a statement turns out to start: a labelled statement, which is no
    generator, or a declaration. -/
def namedStmt? (g : Grammar) (name : String) (start nameAt : Position) (marks : List Decorator) :
    Parser (Option Stmt) := do
  if ← eatSign ":" then
    check (!((← isWord "function") && (← next (isSign "*"))))
    return some (.other [← g.stmt])
  if name == "interface" && (← onNewLine) then return none
  if let some decl ← namedDeclaration? g name nameAt marks then return some decl
  if ["public", "static", "abstract"].contains name && (← eatWord "interface") then
    return some (.interfaceDecl (← interface g start))
  return none

/-- A statement that is an expression, or that starts with a name. An expression that an operator
    follows goes on with it. -/
def expressionStmt (g : Grammar) (start : Position) (marks : List Decorator) : Parser Stmt := do
  let here ← place
  let e ← inside g.expression
  if let .ident name := e then
    if let some s ← namedStmt? g name start here marks then return s
  if ← eatEnd then return .expr e
  check (← onOperatorSign)
  return .expr (← operators g 0 e)

/-- A statement after its decorators. -/
def statement (g : Grammar) (declares : Bool) (start : Position) (marks : List Decorator) :
    Parser Stmt :=
  withSettings (fun s => { s with expectsColon := false }) do
    if ← isSign "\x7b" then return ← blockStmt g
    if ← eatSign ";" then return .other []
    if let some s ← controlStmt? g then return s
    if let some s ← declaration? g declares start marks then return s
    expressionStmt g start marks

/-- A call of the module loader, or a fact about the module, as a statement. It may stand next to
    another statement. -/
def loaderStmt (g : Grammar) : Parser Stmt := do
  check ((← isWord "import") && (← next (isOneOf ["(", "."])))
  let e ← g.expression
  discard eatEnd
  return .expr e

/-- A statement with its decorators, where imports and exports are read by the given rule. -/
def decoratedStmt (g : Grammar) (declares : Bool) (item : List Decorator → Parser Stmt) :
    Parser Stmt := do
  let start ← place
  let marks ← decorators g
  if (← isWord "import") || (← isWord "export") then item marks
  else statement g declares start marks

/-- The rule for a statement where only one may stand. -/
def stmtRule (g : Grammar) : Parser Stmt :=
  decoratedStmt g false fun _ => loaderStmt g

/-- The rule for a statement among others. -/
def listedStmtRule (g : Grammar) : Parser Stmt :=
  decoratedStmt g true fun _ => loaderStmt g

end ElementCatalog.Source.Grammar
