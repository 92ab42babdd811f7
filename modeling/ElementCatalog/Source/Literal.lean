import ElementCatalog.Decimal.Text
import ElementCatalog.Dictionary
import ElementCatalog.Source.Tree

/-!
# Literals — what an expression says without being run

Type assertions and parentheses around an expression do not change its value. Inside them a reader
may find a literal, a name or an object with literal entries; everything else stays unread.
-/

namespace ElementCatalog.Source

namespace Expr

/-- The expression inside type assertions and parentheses. -/
def unwrapped : Expr → Expr
  | .asType inner _ => inner.unwrapped
  | .asConst inner => inner.unwrapped
  | .satisfies inner _ => inner.unwrapped
  | .nonNull inner => inner.unwrapped
  | .paren inner => inner.unwrapped
  | e => e

/-- The text of a string, or of a template without substitutions. -/
def string? (e : Expr) : Option String :=
  match e.unwrapped with
  | .string value => value.value?
  | .template pieces [] =>
    match pieces with
    | some piece :: _ => piece.value?
    | _ => none
  | _ => none

/-- The value of a truth value. -/
def bool? (e : Expr) : Option Bool :=
  match e.unwrapped with
  | .boolean value => some value
  | _ => none

/-- The value of a number, with minus signs before it. -/
def number? : Expr → Option Float
  | .asType inner _ => inner.number?
  | .asConst inner => inner.number?
  | .satisfies inner _ => inner.number?
  | .nonNull inner => inner.number?
  | .paren inner => inner.number?
  | .number value => some value
  | .unary .minus operand => operand.number?.map fun x => -x
  | _ => none

/-- The entries of an object literal. -/
def entries? (e : Expr) : Option (List Property) :=
  match e.unwrapped with
  | .object properties => some properties
  | _ => none

/-- A variable's name, or the last name of a member access. -/
def name? (e : Expr) : Option String :=
  match e.unwrapped with
  | .ident name => some name
  | .member _ name => some name
  | _ => none

end Expr

/-- Where a key starts. -/
def Key.start : Key → Position
  | .ident start _ => start
  | .string start _ => start
  | .number start _ => start
  | .computed start _ => start
  | .other start => start

/-- The name that a key stands for. Numbers are written in plain notation, and computed keys have
    no name. -/
def Key.name? : Key → Option String
  | .ident _ name => some name
  | .string _ value => value.value?
  | .number _ value => some (Decimal.plain value)
  | .computed _ _ => none
  | .other _ => none

/-- The name that a decorator is used by: `@name`, `@name(…)`, `@space.name(…)`. -/
def Decorator.name? (d : Decorator) : Option String :=
  match d.value with
  | .call _ callee _ _ => callee.name?
  | value => value.name?

/-- An argument that stands for itself, and not for the elements of a list. -/
def Expr.isSpread : Expr → Bool
  | .spread _ => true
  | _ => false

/-- The expression of an argument. -/
def Expr.argument : Expr → Expr
  | .spread inner => inner
  | e => e

namespace Property

/-- The value of the first entry with a key of the given name. -/
def value? (properties : List Property) (name : String) : Option Expr :=
  properties.findSome? fun
    | .keyValue key value => if key.name? = some name then some value else none
    | _ => none

/-- The text of the first entry with a key of the given name. -/
def string? (properties : List Property) (name : String) : Option String :=
  (value? properties name).bind Expr.string?

/-- The truth value of the first entry with a key of the given name. -/
def bool? (properties : List Property) (name : String) : Option Bool :=
  (value? properties name).bind Expr.bool?

/-- An entry has the given name, as a key or as a shorthand. -/
def has (properties : List Property) (name : String) : Bool :=
  properties.any fun
    | .keyValue key _ => key.name? == some name
    | .shorthand n => n == name
    | _ => false

end Property

/-- A pattern without the decorators before it. -/
def Pattern.undecorated : Pattern → Pattern
  | .decorated _ target => target
  | pattern => pattern

/-- A pattern with a declared type. -/
def Pattern.typed (type : Option TypeUse) : Pattern → Pattern
  | .ident name _ => .ident name type
  | .array elements _ => .array elements type
  | .object entries _ => .object entries type
  | .rest target _ => .rest target type
  | pattern => pattern

/-- The declared type of a parameter that stands for one argument. -/
def Pattern.declared? : Pattern → Option TypeExpr
  | .ident _ type => type.map (·.type)
  | .array _ type => type.map (·.type)
  | .object _ type => type.map (·.type)
  | _ => none

/-- An expression as the key of a type member: a name, or the text of a string. -/
def MemberKey.ofExpr (computed : Bool) : Expr → MemberKey
  | .ident name => .ident name computed
  | e => .literal e.string?

/-- The name that an inherited type is looked up by: a plain one, or one in a namespace. -/
def Heritage.name? (h : Heritage) : Option EntityName :=
  match h.value with
  | .ident name => some (.ident name)
  | .member (.ident outer) name => some (.qualified (.ident outer) name)
  | _ => none

end ElementCatalog.Source
