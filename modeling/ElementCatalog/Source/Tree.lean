import ElementCatalog.Source.TypeTree

/-!
# Source trees — modules as they are written

Expressions, patterns and statements of a module. Forms are kept apart where a reader tells them
apart; every other expression is the list of its operands and every other statement the list of its
parts, both in the order in which they are visited.
-/

namespace ElementCatalog.Source

/-- The operators of unary expressions that readers tell apart. -/
inductive UnaryOperator where
  | minus
  | plus
  | other
deriving DecidableEq, Repr

/-- What a method of a class is. -/
inductive MethodKind where
  | method
  | getter
  | setter
deriving DecidableEq, Repr

/-- What is written before and after the key of a class member. -/
structure Modifiers where
  isStatic : Bool
  /-- Neither private nor protected. -/
  isPublic : Bool
  optional : Bool
deriving DecidableEq, Repr

/-- What an import binds: a local name for a name of the other module. The default export is
    imported as `default`, and the whole module as `*`. -/
structure ImportSpecifier where
  localName : String
  imported : String
deriving DecidableEq, Repr

/-- What an export list exports: an outer name for a name of this or the other module. The whole
    other module is exported as `*`. -/
structure ExportSpecifier where
  exported : String
  inner : String
deriving DecidableEq, Repr

mutual

/-- An expression. Holes and spreads occur only as elements and arguments. -/
inductive Expr where
  | ident (name : String)
  | string (value : StringLiteral)
  | number (value : Float)
  | bigint
  | boolean (value : Bool)
  | null
  /-- A template with the values of its text pieces, where they have one, and its substitutions. -/
  | template (pieces : List (Option StringLiteral)) (substitutions : List Expr)
  | array (elements : List Expr)
  | object (properties : List Property)
  | function (value : Function)
  /-- An arrow function, with what its type parameters and its result type hold. -/
  | arrow (params : List Pattern) (body : List Stmt) (inner : List Pattern)
  | arrowTo (params : List Pattern) (value : Expr) (inner : List Pattern)
  | classExpr (value : ClassDef)
  | unary (operator : UnaryOperator) (operand : Expr)
  /-- The result that is waited for. -/
  | awaited (operand : Expr)
  /-- Any other operator with its operands. It names no place that can be assigned to. -/
  | operation (operands : List Expr)
  | assign (target : Pattern) (value : Expr)
  | call (start : Position) (callee : Expr) (typeArgs : List TypeUse) (args : List Expr)
  | new (callee : Expr) (typeArgs : List TypeUse) (args : List Expr)
  /-- A member read by its name. -/
  | member (object : Expr) (name : String)
  /-- Any other access to a member: by a key in brackets, by a private name, or to a member of the
      base class. -/
  | access (operands : List Expr)
  /-- A value with type arguments. -/
  | instantiated (inner : Expr) (typeArgs : List TypeUse)
  | paren (inner : Expr)
  | nonNull (inner : Expr)
  | asType (inner : Expr) (type : TypeUse)
  | asConst (inner : Expr)
  | satisfies (inner : Expr) (type : TypeUse)
  | spread (inner : Expr)
  | hole
  /-- A chain of accesses that may stop early, with its operands. -/
  | optionalChain (operands : List Expr) (typeArgs : List TypeUse)
  /-- Any other expression, with its operands. -/
  | other (operands : List Expr)

/-- An entry of an object literal. -/
inductive Property where
  | keyValue (key : Key) (value : Expr)
  | shorthand (name : String)
  /-- A shorthand with the default that it has in a pattern. -/
  | withDefault (name : String) (value : Expr)
  | method (key : Key) (value : Function)
  /-- A getter with its result type, or a setter with its parameters. -/
  | accessor (key : Key) (params : List Pattern) (type : Option TypeUse) (body : List Stmt)
  | spread (value : Expr)

/-- A key of an object literal, a class member or a pattern, and where it starts. -/
inductive Key where
  | ident (start : Position) (name : String)
  | string (start : Position) (value : StringLiteral)
  | number (start : Position) (value : Float)
  | computed (start : Position) (value : Expr)
  /-- A private name or a big integer: a key without a name outside. -/
  | other (start : Position)

/-- A binding or a destructuring pattern. Holes and entries occur only inside arrays and objects. -/
inductive Pattern where
  | ident (name : String) (type : Option TypeUse)
  | array (elements : List Pattern) (type : Option TypeUse)
  | object (entries : List Pattern) (type : Option TypeUse)
  | withDefault (target : Pattern) (value : Expr)
  | rest (target : Pattern) (type : Option TypeUse)
  | expr (value : Expr)
  /-- No pattern: a place that is left out, or an expression that cannot be a target. -/
  | hole
  | keyed (key : Key) (target : Pattern)
  | shorthand (name : String) (value : Option Expr)
  | decorated (decorators : List Decorator) (target : Pattern)

/-- A type where it is used, with what stands inside it and is no type: the parameters of its
    signatures, and its expressions as patterns, in the order in which they are visited. -/
structure TypeUse where
  type : TypeExpr
  inner : List Pattern

/-- A type parameter with its default, and with what its constraint and its default hold. -/
structure TypeParam where
  name : String
  default : Option TypeExpr
  inner : List Pattern

/-- A value in an `extends` or `implements` clause, with its type arguments. -/
structure Heritage where
  value : Expr
  args : List TypeUse

/-- A decorator. -/
structure Decorator where
  start : Position
  value : Expr

/-- A function with its signature. Overload signatures and abstract methods have no body. -/
structure Function where
  start : Position
  params : List Pattern
  decorators : List Decorator
  body : Option (List Stmt)
  typeParams : List TypeParam
  returnType : Option TypeUse

/-- A member of a class. -/
inductive ClassMember where
  | field (start : Position) (modifiers : Modifiers) (decorators : List Decorator) (key : Key)
      (type : Option TypeUse) (value : Option Expr)
  /-- A field with a getter and a setter of its own. -/
  | accessor (start : Position) (modifiers : Modifiers) (decorators : List Decorator) (key : Key)
      (type : Option TypeUse) (value : Option Expr)
  | method (start : Position) (modifiers : Modifiers) (kind : MethodKind) (key : Key)
      (value : Function)
  | initializer (start : Position) (params : List Pattern) (body : Option (List Stmt))
  | staticBlock (start : Position) (body : List Stmt)
  /-- An index signature with what it holds, or a stray semicolon. -/
  | other (start : Position) (inner : List Pattern)

/-- A class. -/
structure ClassDef where
  start : Position
  decorators : List Decorator
  params : List TypeParam
  superClass : Option Expr
  superArgs : List TypeUse
  implemented : List Heritage
  members : List ClassMember

/-- One variable of a variable declaration. -/
structure Declarator where
  start : Position
  target : Pattern
  init : Option Expr

/-- A member of an enumeration. -/
structure EnumMember where
  name : String
  init : Option Expr

/-- The declaration of an interface, with what its members hold. -/
structure InterfaceDecl where
  start : Position
  name : String
  params : List TypeParam
  parents : List Heritage
  members : List TypeMember
  inner : List Pattern

/-- The declaration of a type alias. -/
structure AliasDecl where
  start : Position
  name : String
  params : List TypeParam
  type : TypeUse

/-- A statement or an item of a module. -/
inductive Stmt where
  | expr (value : Expr)
  | returned (value : Option Expr)
  | classDecl (name : String) (value : ClassDef)
  | functionDecl (name : String) (value : Function)
  | variableDecl (start : Position) (declarators : List Declarator)
  /-- Variables that are released at the end of their block. -/
  | resources (declarators : List Declarator)
  | interfaceDecl (value : InterfaceDecl)
  | aliasDecl (value : AliasDecl)
  | enumDecl (start : Position) (name : String) (members : List EnumMember)
  | namespaceDecl (body : List Stmt)
  /-- An import, with the object of its attributes. -/
  | importFrom (specifiers : List ImportSpecifier) (source : StringLiteral)
      (attributes : Option Expr)
  /-- A declaration after `export`. -/
  | exported (start : Position) (decl : Stmt)
  | exportClass (start : Position) (name : Option String) (value : ClassDef)
  | exportFunction (start : Position) (name : Option String) (value : Function)
  | exportInterface (start : Position) (value : InterfaceDecl)
  | exportValue (start : Position) (value : Expr)
  | exportNames (specifiers : List ExportSpecifier) (source : Option StringLiteral)
      (attributes : Option Expr)
  | exportAll (source : StringLiteral) (attributes : Option Expr)
  /-- A pattern that stands in a statement, as in the head of a loop. -/
  | target (value : Pattern)
  /-- Any other statement, with its parts; a block is one of them. -/
  | other (parts : List Stmt)

end

instance : Inhabited Expr := ⟨.null⟩
instance : Inhabited Stmt := ⟨.other []⟩
instance : Inhabited Pattern := ⟨.hole⟩

/-- A module: its items, and the documentation text that stands before each documented token, by the
    offset of the token. -/
structure Module where
  items : List Stmt
  docs : List (Nat × String)

/-- The documentation text before the token at a position. -/
def Module.docAt? (m : Module) (p : Position) : Option String :=
  m.docs.lookup p.offset

end ElementCatalog.Source
