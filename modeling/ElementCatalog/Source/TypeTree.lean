/-!
# Type expressions — types as they are written in a source

The tree keeps what readers of types ask for: references with their arguments, literals, object
members with their keys and positions, and the operators that have a meaning for data. Forms that
describe no data (constructor types, conditional types, `typeof` and the like) are kept as one leaf.
Expressions that stand inside a type are kept beside it, where the type is used.
-/

namespace ElementCatalog.Source

/-- A place in a source: the number of characters before it, and its line, counted from one. -/
structure Position where
  offset : Nat
  line : Nat
deriving DecidableEq, Repr, Inhabited

/-- The value of a string literal. A lone surrogate cannot be part of a text; it is shown as the
    replacement character, and the literal is then not well formed. -/
structure StringLiteral where
  text : String
  wellFormed : Bool
deriving DecidableEq, Repr, Inhabited

/-- The text of a well-formed literal. -/
def StringLiteral.value? (s : StringLiteral) : Option String :=
  if s.wellFormed then some s.text else none

/-- A name with the namespaces it is looked up in: `a`, `a.b`, `a.b.c`. -/
inductive EntityName where
  | ident (name : String)
  | qualified (left : EntityName) (right : String)
deriving DecidableEq, Repr, Inhabited

/-- The last part of a name. -/
def EntityName.last : EntityName → String
  | .ident name => name
  | .qualified _ right => right

/-- The built-in types that have a name of their own. -/
inductive TypeKeyword where
  | string
  | number
  | bigint
  | boolean
  | null
  | undefined
  | void
  | object
  | other
deriving DecidableEq, Repr

/-- A literal written as a type. -/
inductive TypeLiteral where
  | string (value : StringLiteral)
  | number (value : Float)
  | boolean (value : Bool)
  | bigint
  | template
deriving Repr

/-- The key of a member of an object type. An identifier may stand in brackets; any other key has a
    value only if it is a string. -/
inductive MemberKey where
  | ident (name : String) (computed : Bool)
  | literal (value : Option String)
deriving DecidableEq, Repr

/-- The name that a key gives to its member. -/
def MemberKey.name? : MemberKey → Option String
  | .ident name _ => some name
  | .literal value => value

mutual

/-- A type as it is written. -/
inductive TypeExpr where
  | keyword (keyword : TypeKeyword)
  | reference (name : EntityName) (args : List TypeExpr)
  | literal (value : TypeLiteral)
  | object (members : List TypeMember)
  | array (items : TypeExpr)
  | tuple (elements : List TypeExpr)
  | optional (type : TypeExpr)
  | rest (type : TypeExpr)
  | union (members : List TypeExpr)
  | intersection (members : List TypeExpr)
  | paren (type : TypeExpr)
  | readonly (type : TypeExpr)
  | keyof (type : TypeExpr)
  | indexed (object index : TypeExpr)
  | mapped
  | predicate
  /-- A function, with the declared type of its first parameter. -/
  | function (parameter : Option TypeExpr)
  | other

/-- A member of an object type or an interface. -/
inductive TypeMember where
  | property (start : Position) (key : MemberKey) (optional : Bool) (type : Option TypeExpr)
  /-- A method, with the declared type of its first parameter. -/
  | method (start : Position) (key : MemberKey) (optional : Bool) (parameter : Option TypeExpr)
  | getter (start : Position) (key : MemberKey) (type : Option TypeExpr)
  | other

end

instance : Inhabited TypeExpr := ⟨.other⟩
instance : Inhabited TypeMember := ⟨.other⟩

end ElementCatalog.Source
