import ElementCatalog.Source.Grammar.Operators

/-!
# Grammar of assignments

What stands before an assignment, an arrow or the word of a loop is first read as an expression and
then taken for a pattern. Parts of it that cannot be targets are left out; only a method of an object
cannot be taken at all.
-/

namespace ElementCatalog.Source.Grammar

open ElementCatalog.Source.Parser

/-! ## Expressions as patterns -/

/-- What a part of a pattern is to be: the name of a new variable, or any place. -/
inductive TargetKind where
  | newVariable
  | place
deriving DecidableEq, Repr

/-- The expression may stand as a place inside a pattern, even if it is none. -/
def standsAsPlace : Expr → Bool
  | .member _ _ => true
  | .access _ => true
  | .call _ _ _ _ => true
  | .new _ _ _ => true
  | .string _ => true
  | .number _ => true
  | .bigint => true
  | .boolean _ => true
  | .null => true
  | .function _ => true
  | .classExpr _ => true
  | .paren _ => true
  | .template _ _ => true
  | .asType _ _ => true
  | _ => false

mutual

/-- An expression as a part of a pattern. -/
def targetOf? (kind : TargetKind) : Expr → Option Pattern
  | .ident name => some (.ident name none)
  | .assign target value => some (.withDefault target value)
  | .array elements => return .array (← elementTargets? kind elements) none
  | .object properties => return .object (← entryTargets? kind properties) none
  | e => some (if kind = .place && standsAsPlace e then .expr e else .hole)

/-- The elements of an array as those of a pattern. A spread stands for the rest if it is last. -/
def elementTargets? (kind : TargetKind) : List Expr → Option (List Pattern)
  | [] => some []
  | [.spread inner] => return [.rest (← targetOf? kind inner) none]
  | .spread _ :: rest => return .hole :: (← elementTargets? kind rest)
  | element :: rest => return (← targetOf? kind element) :: (← elementTargets? kind rest)

/-- The entries of an object as those of a pattern. -/
def entryTargets? (kind : TargetKind) : List Property → Option (List Pattern)
  | [] => some []
  | entry :: rest => return (← entryTarget? kind entry) :: (← entryTargets? kind rest)

/-- An entry of an object as one of a pattern. The rest of a binding is a name. -/
def entryTarget? (kind : TargetKind) : Property → Option Pattern
  | .keyValue key value => return .keyed key (← targetOf? kind value)
  | .shorthand name => some (.shorthand name none)
  | .withDefault name value => some (.shorthand name (some value))
  | .spread (.ident name) => some (.rest (.ident name none) none)
  | .spread inner =>
    if kind = .newVariable then some (.rest .hole none)
    else return .rest (← targetOf? kind inner) none
  | .method _ _ => none
  | .accessor _ _ _ _ => none

end

/-- An expression as what is assigned to. -/
def assignedOf? : Expr → Option Pattern
  | .ident name => some (.ident name none)
  | .array elements => targetOf? .place (.array elements)
  | .object properties => targetOf? .place (.object properties)
  | e => some (.expr e)

/-- The expression names a single place that can be assigned to. -/
def isPlace : Expr → Bool
  | .ident _ => true
  | .member _ _ => true
  | .access _ => true
  | .optionalChain _ _ => true
  | .paren _ => true
  | .nonNull _ => true
  | .asType _ _ => true
  | .satisfies _ _ => true
  | .instantiated _ _ => true
  | _ => false

/-- The expression is an arrow function, after which no operator can stand. -/
def isArrow : Expr → Bool
  | .arrow _ _ _ => true
  | .arrowTo _ _ _ => true
  | _ => false

/-- The expression is the result of an operator, to which nothing can be assigned. -/
def isOperation : Expr → Bool
  | .operation _ => true
  | .unary _ _ => true
  | _ => false

/-! ## Assigning -/

/-- The operators that assign. -/
def assignmentOperators : List String :=
  [ "=", "+=", "-=", "*=", "/=", "%=", "**=", "<<=", ">>=", ">>>=", "&=", "|=", "^=", "&&=", "||=",
    "??=" ]

/-- The operator under the cursor, if it assigns. -/
def assignmentOperator? : Parser (Option String) := do
  return (← signOperator?).filter assignmentOperators.contains

/-- What is assigned to an expression, if anything is. Only the plain assignment takes patterns. -/
def finishAssignment (g : Grammar) (left : Expr) : Parser Expr := do
  match ← assignmentOperator? with
  | none => return left
  | some operator =>
    check (isPlace left || (operator == "=" && (left matches .array _ || left matches .object _)))
    match assignedOf? left with
    | none => stuck
    | some target =>
      passOperator operator
      return .assign target (← g.assignment)

end ElementCatalog.Source.Grammar
