import ElementCatalog.Source.Grammar.Patterns

/-!
# Grammar of binary operators

A chain of operands is read from left to right: an operator takes the chain before it for its left
operand, and for its right one all that binds more strongly.
-/

namespace ElementCatalog.Source.Grammar

open ElementCatalog.Source.Parser

/-- The strength of a binary operator. -/
def strength? (operator : String) : Option Nat :=
  match operator with
  | "??" => some 1
  | "||" => some 1
  | "&&" => some 2
  | "|" => some 3
  | "^" => some 4
  | "&" => some 5
  | "==" => some 6
  | "!=" => some 6
  | "===" => some 6
  | "!==" => some 6
  | "<" => some 7
  | ">" => some 7
  | "<=" => some 7
  | ">=" => some 7
  | "<<" => some 8
  | ">>" => some 8
  | ">>>" => some 8
  | "+" => some 9
  | "-" => some 9
  | "*" => some 10
  | "/" => some 10
  | "%" => some 10
  | "**" => some 11
  | _ => none

/-- The strength of the operators that are words, and of comparisons. -/
def comparisonStrength : Nat := 7

/-- The operator that starts with a closing bracket. -/
def closingOperator (text : List Char) : String :=
  (([">>>=", ">>=", ">>>", ">>", ">="].find? fun op => op.toList.isPrefixOf text)).getD ">"

/-- The sign under the cursor as an operator. -/
def signOperator? : Parser (Option String) := do
  let c ← get
  match c.token with
  | .sign ">" => return some (closingOperator c.here)
  | .sign text => return some text
  | _ => return none

/-- Move behind the operator under the cursor. -/
def passOperator (operator : String) : Parser Unit :=
  pass (.sign operator) operator.length

/-- The binary operator under the cursor with its strength. -/
def binaryOperator? : Parser (Option (String × Nat)) := do
  match ← token with
  | .word "instanceof" => return some ("instanceof", comparisonStrength)
  | .word "in" => return if (← settings).allowIn then some ("in", comparisonStrength) else none
  | _ => return (← signOperator?).bind fun operator => (strength? operator).map ((operator, ·))

/-- The cursor stands on a sign that is a binary operator, where no slash can be one: it starts a
    regular expression. -/
def onOperatorSign : Parser Bool := do
  return (← signOperator?).any fun operator => operator != "/" && (strength? operator).isSome

/-- The rest of a chain of operands after the first of them, as far as operators bind more strongly
    than given. A power has no operator before its base. -/
def operators (g : Grammar) (least : Nat) (first : Expr) : Parser Expr :=
  loop first fun left => do
    if !(← onNewLine) then
      if least < comparisonStrength && (← eatWord "as") then
        if ← eatWord "const" then return .inl (.asConst left)
        return .inl (.asType left (← g.type))
      if ← eatWord "satisfies" then return .inl (.satisfies left (← g.type))
    match ← binaryOperator? with
    | none => return .inr left
    | some (operator, n) =>
      if n ≤ least then return .inr left
      passOperator operator
      check (operator != "**" || !(left matches .unary _ _ || left matches .awaited _))
      let right ← g.operation (if operator == "**" then n - 1 else n)
      return .inl (.operation [left, right])

end ElementCatalog.Source.Grammar
