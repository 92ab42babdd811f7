import ElementCatalog.Source.Grammar.Types

/-!
# Grammar of markup

The rule for elements written in a script: tags, attributes and children. Of an element only the
expressions inside it matter. Between tags the text is plain and has no tokens, so the rule leaves
the cursor on the bracket that closes the element.
-/

namespace ElementCatalog.Source.Grammar

open ElementCatalog.Source.Parser

/-! ## Tags -/

/-- A name in a tag; hyphens belong to it. -/
def tagWord : Parser String := do
  let c ← get
  match c.token with
  | .word _ =>
    let name := c.here.takeWhile fun d => Text.isIdentifierPart d || d == '-'
    pass c.token name.length
    return String.ofList name
  | _ => stuck

/-- The name of an element: words with dots or a colon between them. -/
def tagName : Parser String := do
  let first ← tagWord
  loop first fun name => do
    if ← eatSign "." then return .inl (name ++ "." ++ (← tagWord))
    if ← eatSign ":" then return .inl (name ++ ":" ++ (← tagWord))
    return .inr name

/-! ## Attributes -/

/-- Move behind the quoted text after an equals sign, in which nothing is escaped, if there is such a
    text. -/
def quotedValue : Parser Unit := fun c =>
  let gap := Gap.pass false .blanks c.rest {}
  match c.rest.drop gap.length with
  | quote :: rest =>
    let inner := rest.takeWhile (· != quote)
    match rest.drop inner.length with
    | _ :: after =>
      if quote.toNat == 0x22 || quote.toNat == 0x27 then
        .ok () (c.standAfter (.string (.ofCodes [])) after
          (c.restAt.past (gap.length + inner.length + 2) c.rest))
      else .error () c
    | [] => .error () c
  | [] => .error () c

/-- The expression between braces, which may be missing. The cursor stays on the closing brace. -/
def braced (g : Grammar) : Parser (List Expr) := do
  sign "\x7b"
  if ← isSign "\x7d" then return []
  discard (eatSign "...")
  let value ← inside g.expression
  check (← isSign "\x7d")
  return [value]

/-- What an attribute is given: a text, an expression between braces, or an element. -/
def attributeValue (g : Grammar) : Parser (List Expr) := do
  if let some () ← maybe quotedValue then return []
  sign "="
  if ← isSign "\x7b" then
    check (!(← next (isSign "\x7d")))
    let parts ← braced g
    advance
    return parts
  let parts ← g.element
  advance
  return parts

/-- An attribute: the expressions in its value. -/
def tagAttribute (g : Grammar) : Parser (List Expr) := do
  if ← isSign "\x7b" then
    check (← next (isSign "..."))
    let parts ← braced g
    advance
    return parts
  discard tagWord
  if ← eatSign ":" then discard tagWord
  if ← isSign "=" then attributeValue g else return []

/-! ## Children -/

/-- Stand on the sign that ends a stretch of plain text: the bracket of a tag or the brace of an
    expression. -/
def skipPlainText : Parser Unit := fun c =>
  let plain := c.rest.takeWhile fun d => d != '<' && d != '{'
  match c.rest.drop plain.length with
  | [] => .error () c
  | rest => .ok () (c.standAt rest (c.restAt.past plain.length c.rest))

/-- The children of an element up to its closing tag, and the name in that tag. -/
def children (g : Grammar) : Parser (List Expr × String) :=
  loop [] fun parts => do
    skipPlainText
    if ← isSign "\x7b" then return .inl (parts ++ (← braced g))
    if ← next (isSign "/") then
      advance
      advance
      if ← isSign ">" then return .inr (parts, "")
      let name ← tagName
      check (← isSign ">")
      return .inr (parts, name)
    return .inl (parts ++ (← g.element))

/-- The rule for elements: the expressions inside, in order. The cursor stays on the closing
    bracket. -/
def elementRule (g : Grammar) : Parser (List Expr) := do
  sign "<"
  if ← isSign ">" then
    let (parts, name) ← children g
    check (name == "")
    return parts
  let name ← tagName
  let types ← if ← onTypeArgs then maybe (typeArgs g) else pure none
  let attributes ← loop [] fun parts => do
    if ← isOneOf ["/", ">"] then return .inr parts
    return .inl (parts ++ (← tagAttribute g))
  let parts := attributes ++ types.toList.map (.instantiated (.other []) ·)
  if ← eatSign "/" then
    check (← isSign ">")
    return parts
  let (inner, closing) ← children g
  check (closing == name)
  return parts ++ inner

end ElementCatalog.Source.Grammar
