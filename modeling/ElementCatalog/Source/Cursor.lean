import ElementCatalog.Source.Gap
import ElementCatalog.Source.Tree

/-!
# Cursors — reading a source token by token

A cursor stands on a token and knows the text on both sides of its end. A parser moves the cursor
and returns a value, or is stuck; a stuck parser still tells where it stopped, because some rules go
on from there. The grammar is a record of parsers: every rule is written over a grammar of smaller
depth, so that no rule refers to itself.
-/

namespace ElementCatalog.Source

/-- What the rules around a place say about the texts that may stand there. -/
structure Settings where
  /-- Elements may be written as markup. -/
  markup : Bool
  /-- Declarations only describe what exists elsewhere. -/
  ambient : Bool := false
  /-- The operator `in` may be used; it may not in the head of a loop. -/
  allowIn : Bool := true
  /-- A type may be conditional; it may not after `extends`. -/
  allowConditional : Bool := true
  /-- The place is inside one of the choices of a conditional expression. -/
  inChoice : Bool := false
  /-- The place is inside the first choice, and a colon has to follow. -/
  expectsColon : Bool := false
  inGenerator : Bool := false
  inAsync : Bool := false
  inParams : Bool := false
  inLoopHead : Bool := false
  inCase : Bool := false
deriving Repr

/-- A place in a source with the token that stands there. -/
structure Cursor where
  token : Token
  /-- Where the token counts as starting. -/
  start : Position
  /-- A line ends between the token before and this one. -/
  lineBreak : Bool
  /-- The text from the token on, and its place. -/
  here : List Char
  hereAt : Position
  /-- The text after the token, and its place. -/
  rest : List Char
  restAt : Position
  /-- The offset at which the source ends. -/
  size : Nat
  /-- The documentation found so far, by the offset of the documented token. -/
  docs : List (Nat × String)
  /-- The offset at which an arrow function may start. -/
  arrowStart : Option Nat
  settings : Settings

/-- A step through a source that returns a value or is stuck. -/
abbrev Parser (α : Type) := EStateM Unit Cursor α

namespace Cursor

/-- Take the first characters of the text under the cursor for a given token. -/
def retake (c : Cursor) (token : Token) (length : Nat) : Cursor :=
  { c with
    token := token
    rest := c.here.drop length
    restAt := c.hereAt.past length c.here }

/-- Stand directly at a text and its place. -/
def standAt (c : Cursor) (text : List Char) (place : Position) : Cursor :=
  let (token, length) := scanToken text
  { c with start := place, lineBreak := false, here := text, hereAt := place }.retake token length

/-- Stand on the token after a gap at a text and its place. -/
def standBehind (c : Cursor) (gap : Gap) (text : List Char) (place : Position) : Cursor :=
  let start := place.past (gap.guardAt.getD gap.length) text
  { c.standAt (text.drop gap.length) (place.past gap.length text) with
    start := start
    lineBreak := gap.lineBreak
    docs :=
      match gap.doc with
      | some doc => (start.offset, doc) :: c.docs
      | none => c.docs }

/-- Stand on the token after a text and a place, where `previous` is the token before. -/
def standAfter (c : Cursor) (previous : Token) (text : List Char) (place : Position) : Cursor :=
  c.standBehind (Gap.pass previous.takesComments .blanks text {}) text place

end Cursor

namespace Parser

/-- Do not go on from here. -/
def stuck : Parser α :=
  throw ()

/-- Go on only if a condition holds. -/
def check (condition : Bool) : Parser Unit :=
  if condition then pure () else stuck

/-- Move to the next token. -/
def advance : Parser Unit := fun c =>
  match c.token with
  | .invalid => .error () c
  | token => .ok () (c.standAfter token c.rest c.restAt)

/-- Take the first characters of the text under the cursor for a token, and move behind it. -/
def pass (token : Token) (length : Nat) : Parser Unit := do
  modify (·.retake token length)
  advance

/-! ## Looking -/

/-- The token under the cursor. -/
def token : Parser Token :=
  return (← get).token

/-- Where the cursor stands. -/
def place : Parser Position :=
  return (← get).start

/-- What the rules around the cursor say. -/
def settings : Parser Settings :=
  return (← get).settings

/-- The cursor stands at the start of a line. -/
def onNewLine : Parser Bool :=
  return (← get).lineBreak

/-- The token under the cursor is a given sign. -/
def isSign (text : String) : Parser Bool := do
  match ← token with
  | .sign t => return t == text
  | _ => return false

/-- The token under the cursor is one of some signs. -/
def isOneOf (texts : List String) : Parser Bool := do
  match ← token with
  | .sign t => return texts.contains t
  | _ => return false

/-- The token under the cursor is a given word. -/
def isWord (name : String) : Parser Bool := do
  match ← token with
  | .word n => return n == name
  | _ => return false

/-- The token under the cursor is a word, reserved or not. -/
def onWord : Parser Bool := do
  match ← token with
  | .word _ => return true
  | _ => return false

/-- The token under the cursor is a word that can name a variable. -/
def onVariable : Parser Bool := do
  match ← token with
  | .word name => return !reservedWords.contains name
  | _ => return false

/-- The token under the cursor is a string. -/
def onString : Parser Bool := do
  match ← token with
  | .string _ => return true
  | _ => return false

/-- The cursor stands at the end of the source. -/
def onFinish : Parser Bool := do
  match ← token with
  | .finish => return true
  | _ => return false

/-- The statement may end here: before a semicolon or a closing brace, at the end of the source, or
    at the start of a line. -/
def onEnd : Parser Bool := do
  match ← token with
  | .sign ";" => return true
  | .sign "\x7d" => return true
  | .finish => return true
  | _ => onNewLine

/-! ## Passing over tokens -/

/-- Pass over a sign if it is there. -/
def eatSign (text : String) : Parser Bool := do
  if ← isSign text then advance; return true
  else return false

/-- Pass over a word if it is there. -/
def eatWord (name : String) : Parser Bool := do
  if ← isWord name then advance; return true
  else return false

/-- Pass over the end of a statement if one is there. -/
def eatEnd : Parser Bool := do
  if ← eatSign ";" then return true
  else onEnd

/-- Pass over a sign that has to be there. -/
def sign (text : String) : Parser Unit := do
  check (← eatSign text)

/-- Pass over a word that has to be there. -/
def word (name : String) : Parser Unit := do
  check (← eatWord name)

/-- Pass over the end of a statement, which has to be there. -/
def statementEnd : Parser Unit := do
  check (← eatEnd)

/-- Any word, reserved or not. -/
def anyWord : Parser String := do
  match ← token with
  | .word name => advance; return name
  | _ => stuck

/-- A string. -/
def stringToken : Parser StringLiteral := do
  match ← token with
  | .string value => advance; return value
  | _ => stuck

/-! ## Trying -/

/-- Try a parser, and stay where the cursor is if it is stuck. -/
def maybe (p : Parser α) : Parser (Option α) := fun c =>
  match p c with
  | .ok a c' => .ok (some a) c'
  | .error _ _ => .ok none c

/-- Try a parser, and go on from where it is stuck. -/
def recovered (p : Parser α) : Parser (Option α) := fun c =>
  match p c with
  | .ok a c' => .ok (some a) c'
  | .error _ c' => .ok none c'

/-- Whether a parser would answer with yes here; the cursor stays. -/
def ahead (p : Parser Bool) : Parser Bool := fun c =>
  match p c with
  | .ok a _ => .ok a c
  | .error _ _ => .ok false c

/-- Whether a parser would answer with yes after the current token; the cursor stays. -/
def next (p : Parser Bool) : Parser Bool :=
  ahead (do advance; p)

/-- Run a parser with some settings changed, and put the settings back. -/
def withSettings (change : Settings → Settings) (p : Parser α) : Parser α := fun c =>
  match p { c with settings := change c.settings } with
  | .ok a c' => .ok a { c' with settings := c.settings }
  | .error e c' => .error e { c' with settings := c.settings }

/-- Run a parser where the operator `in` may be used. -/
def inside (p : Parser α) : Parser α :=
  withSettings (fun s => { s with allowIn := true }) p

/-! ## Repeating -/

/-- Repeat a step until it returns a result. The number of repetitions is bounded by the text that
    is left, since every step moves the cursor. -/
def loop (start : α) (step : α → Parser (α ⊕ β)) : Parser β := fun c =>
  repeated step (c.size - c.start.offset + 3) start c
where
  /-- Repeat at most the given number of times. -/
  repeated (step : α → Parser (α ⊕ β)) : Nat → α → Parser β
    | 0, _ => stuck
    | n + 1, a => do
      match ← step a with
      | .inl a => repeated step n a
      | .inr b => return b

/-- Items up to a closing sign, separated by commas, and whether a comma stands after the last one.
    The closing sign is passed over. -/
def listWithComma (close : String) (item : Parser α) : Parser (List α × Bool) :=
  loop (([], false) : List α × Bool) fun (found, comma) => do
    if ← eatSign close then return .inr (found.reverse, comma)
    let x ← item
    if ← eatSign "," then return .inl (x :: found, true)
    sign close
    return .inr ((x :: found).reverse, false)

/-- Items up to a closing sign, separated by commas; the last one may have a comma after it. The
    closing sign is passed over. -/
def listUntil (close : String) (item : Parser α) : Parser (List α) :=
  Prod.fst <$> listWithComma close item

/-- Items separated by a sign. -/
def separated (separator : String) (item : Parser α) : Parser (List α) := do
  let first ← item
  loop [first] fun found => do
    if ← eatSign separator then return .inl ((← item) :: found)
    return .inr found.reverse

/-- Items until a parser says that the next one does not follow. -/
def many (ends : Parser Bool) (item : Parser α) : Parser (List α) :=
  loop ([] : List α) fun found => do
    if ← ends then return .inr found.reverse
    return .inl ((← item) :: found)

end Parser

/-- The rules of the language, each a parser. -/
structure Grammar where
  type : Parser TypeUse
  /-- A type that is no condition. -/
  plainType : Parser TypeUse
  /-- The parameters of a function, with the parentheses around them. -/
  params : Parser (List Pattern)
  binding : Parser Pattern
  decorator : Parser Decorator
  heritage : Parser Heritage
  expression : Parser Expr
  assignment : Parser Expr
  /-- An operand with its binary operators. -/
  binary : Parser Expr
  /-- An operand with the binary operators that bind more strongly than given. -/
  operation : Nat → Parser Expr
  unary : Parser Expr
  /-- An operand with everything that is called and accessed on it. -/
  accessed : Parser Expr
  /-- An operand with what is accessed on it; the flag says that it is to be created. -/
  creation : Bool → Parser Expr
  object : Parser Expr
  element : Parser (List Expr)
  /-- A statement, and one among others, which may declare. -/
  stmt : Parser Stmt
  listedStmt : Parser Stmt
  moduleItem : Parser Stmt

/-- The grammar in which nothing can be written. -/
def Grammar.empty : Grammar :=
  { type := stuck, plainType := stuck, params := stuck, binding := stuck, decorator := stuck
    heritage := stuck, expression := stuck, assignment := stuck, binary := stuck
    operation := fun _ => stuck
    unary := stuck, accessed := stuck, creation := fun _ => stuck, object := stuck
    element := stuck, stmt := stuck, listedStmt := stuck, moduleItem := stuck }
where
  /-- Nothing can be written. -/
  stuck {α : Type} : Parser α := Parser.stuck

end ElementCatalog.Source
