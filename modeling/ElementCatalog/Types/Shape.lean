import ElementCatalog.Types.Scope

/-!
# Shapes — the members of a structural type

A shape lists the members of a type with their declared types, each with the scope in which its type
is read. A member that is a function is a callback; only the type of its first parameter matters.
-/

namespace ElementCatalog

open Source (Position TypeExpr TypeMember)
open ElementCatalog.Types

/-- A function-like member: the declared type of its first parameter, and where it is read. -/
structure Callback where
  parameter : Option TypeExpr
  scope : Scope

/-- A member of a shape. -/
structure ShapeMember where
  name : String
  optional : Bool
  /-- The declared type; methods have none. -/
  type : Option TypeExpr
  callback : Option Callback
  /-- The place that documentation stands before. -/
  anchor : Position
  /-- Where the declared type is read. -/
  scope : Scope

/-- The ways to look into a declaration: its schema, its members, and the callback that an alias
    stands for. -/
structure Expander where
  schema : Expand
  members : Declaration → List Schema → List ShapeMember
  callback : Declaration → List TypeExpr → Scope → Option Callback

namespace Types

/-- External types with such a name are functions. -/
def isHandlerName (name : String) : Bool :=
  ["Handler", "Listener", "Callback"].any fun ending => name.endsWith ending

/-- The callback that a reference to a type stands for. -/
def referencedCallback? (w : Workspace) (e : Expander) (scope : Scope) (name : String)
    (args : List TypeExpr) : Option Callback :=
  if name = "Function" then some ⟨none, scope⟩
  else if (Dictionary.find? scope.bindings name).isSome then none
  else
    match w.type? scope.file name with
    | some declaration =>
      match declaration.node with
      | .aliasNode _ => e.callback declaration args scope
      | _ => none
    | none => if isHandlerName name then some ⟨args.head?, scope⟩ else none

mutual

/-- The callback that a type stands for. In a union the members that stand for no value do not
    count, and only one other may be left. -/
def callbackOf? (w : Workspace) (e : Expander) (scope : Scope) : TypeExpr → Option Callback
  | .function parameter => some ⟨parameter, scope⟩
  | .paren type => callbackOf? w e scope type
  | .union members => soleCallback? w e scope members
  | .reference (.ident name) args => referencedCallback? w e scope name args
  | _ => none

/-- The callback that the only type with a value stands for. -/
def soleCallback? (w : Workspace) (e : Expander) (scope : Scope) :
    List TypeExpr → Option Callback
  | [] => none
  | type :: rest =>
    if isNullish type then soleCallback? w e scope rest
    else if rest.all isNullish then callbackOf? w e scope type
    else none

end

/-- The member that a part of an object type declares. -/
def ownMember? (w : Workspace) (e : Expander) (scope : Scope) : TypeMember → Option ShapeMember
  | .property start key optional type =>
    key.name?.map fun name =>
      ⟨name, optional, type, type.bind (callbackOf? w e scope), start, scope⟩
  | .method start key optional parameter =>
    key.name?.map fun name => ⟨name, optional, none, some ⟨parameter, scope⟩, start, scope⟩
  | .getter start key type =>
    key.name?.map fun name => ⟨name, false, type, none, start, scope⟩
  | .other => none

/-- The members that the parts of an object type declare. -/
def ownMembers (w : Workspace) (e : Expander) (scope : Scope) (members : List TypeMember) :
    List ShapeMember :=
  members.filterMap (ownMember? w e scope)

/-- Add a member; a member of its name that is there already makes room for it. -/
def addMember (shape : List ShapeMember) (member : ShapeMember) : List ShapeMember :=
  shape.filter (·.name != member.name) ++ [member]

/-- Add members, one after another. -/
def mergeMembers (shape members : List ShapeMember) : List ShapeMember :=
  members.foldl addMember shape

/-- What a well-known name does to a shape. -/
inductive ShapeChange where
  | setOptional (optional : Bool)
  | keep
  | pick
  | omit
deriving DecidableEq, Repr

/-- The change that a well-known name stands for. -/
def shapeChange? (name : String) : Option ShapeChange :=
  if name = "Partial" then some (.setOptional true)
  else if name = "Required" then some (.setOptional false)
  else if name = "Readonly" then some .keep
  else if name = "Pick" then some .pick
  else if name = "Omit" then some .omit
  else none

/-- Change a shape, where `keys` are the keys to pick or to omit. -/
def ShapeChange.apply (keys : List String) (shape : List ShapeMember) :
    ShapeChange → List ShapeMember
  | .setOptional optional => shape.map fun member => { member with optional := optional }
  | .keep => shape
  | .pick => shape.filter fun member => keys.contains member.name
  | .omit => shape.filter fun member => !keys.contains member.name

/-- The members of a declared type with arguments. -/
def declaredMembers (w : Workspace) (e : Expander) (scope : Scope) (args : List TypeExpr) :
    Option Declaration → List ShapeMember
  | some declaration => e.members declaration (schemasOf w e.schema scope args)
  | none => []

mutual

/-- The members of a type. -/
def membersOf (w : Workspace) (e : Expander) (scope : Scope) : TypeExpr → List ShapeMember
  | .object members => ownMembers w e scope members
  | .paren type => membersOf w e scope type
  | .readonly type => membersOf w e scope type
  | .intersection members => mergedMembersOf w e scope [] members
  | .reference (.ident name) args => namedMembers w e scope name args
  | .reference (.qualified (.ident outer) name) args =>
    declaredMembers w e scope args (w.qualifiedType? scope.file outer name)
  | _ => []

/-- The members of several types, later ones over earlier ones. -/
def mergedMembersOf (w : Workspace) (e : Expander) (scope : Scope) (shape : List ShapeMember) :
    List TypeExpr → List ShapeMember
  | [] => shape
  | type :: rest =>
    mergedMembersOf w e scope (mergeMembers shape (membersOf w e scope type)) rest

/-- The members of the type that a name with arguments stands for. -/
def namedMembers (w : Workspace) (e : Expander) (scope : Scope) (name : String) :
    List TypeExpr → List ShapeMember
  | [] =>
    match shapeChange? name with
    | some _ => []
    | none => declaredMembers w e scope [] (w.type? scope.file name)
  | first :: rest =>
    match shapeChange? name with
    | some change => change.apply (keysArgument (first :: rest)) (membersOf w e scope first)
    | none => declaredMembers w e scope (first :: rest) (w.type? scope.file name)

end

end Types

end ElementCatalog
