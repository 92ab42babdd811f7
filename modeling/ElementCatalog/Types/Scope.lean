import ElementCatalog.Program.Resolution
import ElementCatalog.Types.Enumeration
import ElementCatalog.Types.WellKnown

/-!
# Scopes — the schema of a type expression

A type is read in a scope: the file whose names it may use, and the schemas that type parameters
stand for. Names of declarations are handed to an expander together with the schemas of their
arguments, so that the reading itself follows the type expression alone.
-/

namespace ElementCatalog

open Source (TypeExpr TypeMember TypeParam EntityName TypeKeyword TypeLiteral)
open ElementCatalog.Types

/-- Where a type expression is read. -/
structure Scope where
  file : SourceFile
  /-- What type parameters stand for. -/
  bindings : Dictionary Schema

/-- The scope of a file, without type parameters. -/
def Scope.ofFile (file : SourceFile) : Scope :=
  ⟨file, []⟩

/-- Let a type parameter stand for a schema. -/
def Scope.bind (scope : Scope) (name : String) (schema : Schema) : Scope :=
  { scope with bindings := Dictionary.set scope.bindings name schema }

/-- What a declaration with given arguments is expanded to. -/
abbrev Expand := Declaration → List Schema → Schema

/-- A property of an object before it is written. -/
structure PropertyEntry where
  name : String
  schema : Schema
  required : Bool

/-- Write properties into an object, one after another. -/
def ObjectSchema.insertAll (object : ObjectSchema) (entries : List PropertyEntry) : ObjectSchema :=
  entries.foldl (fun object e => object.insert e.name e.schema e.required) object

namespace Types

/-- The schema of a built-in type. -/
def keywordSchema : TypeKeyword → Schema
  | .string => .string
  | .number => .number
  | .bigint => .number
  | .boolean => .boolean
  | .null => .null
  | .undefined => .null
  | .void => .null
  | .object => .anyObject
  | .other => .unconstrained

/-- The schema of a literal written as a type. -/
def literalSchema : TypeLiteral → Schema
  | .string value =>
    match value.value? with
    | some text => .literal (.string text)
    | none => .string
  | .number value => .literal (.number value)
  | .boolean value => .literal (.boolean value)
  | .bigint => .number
  | .template => .string

/-- The type stands for a missing value. -/
def isUndefined : TypeExpr → Bool
  | .keyword .undefined => true
  | .keyword .void => true
  | _ => false

/-- The type stands for a missing value or for null. -/
def isNullish : TypeExpr → Bool
  | .keyword .null => true
  | type => isUndefined type

/-- The schema of a tuple, from those of its elements. -/
def tupleSchema (elements : List Schema) : Schema :=
  if elements.isEmpty then .array .unconstrained else .array (Schema.union elements)

/-- The schema of an element that stands for the rest of a tuple. -/
def restSchema : Schema → Schema
  | .array items => items
  | schema => schema

/-- The object that a schema describes. -/
def object? : Schema → Option ObjectSchema
  | .object shape => some shape
  | _ => none

/-- The schema of an intersection: all members must be objects, and later ones are written over
    earlier ones. -/
def intersectionSchema (members : List Schema) : Schema :=
  match members.mapM object? with
  | some objects => .object (objects.foldl ObjectSchema.merge .empty)
  | none => .unconstrained

/-- The schema of the names of a schema's properties. -/
def keysSchema : Schema → Schema
  | .object shape =>
    if shape.properties.isEmpty then .string
    else .enumeration .string ((Dictionary.names shape.properties).map .string)
  | _ => .string

/-- The schema of one property of an object, or of an item of a list. -/
def indexedSchema (schema : Schema) (index : TypeExpr) : Schema :=
  match schema, index with
  | .object shape, .literal (.string key) =>
    (key.value?.bind (Dictionary.find? shape.properties)).getD .unconstrained
  | .array items, .keyword .number => items
  | _, _ => .unconstrained

/-- The members of the enumeration that a declaration declares. -/
def enumMembers? (declaration : Option Declaration) : Option (List Source.EnumMember) :=
  match declaration with
  | some ⟨_, _, .enumNode members, _, _⟩ => some members
  | _ => none

end Types

/-! ## Reading -/

mutual

/-- The schema of a type. -/
def schemaOf (w : Workspace) (expand : Expand) (scope : Scope) : TypeExpr → Schema
  | .keyword keyword => keywordSchema keyword
  | .reference (.ident name) args =>
    match Dictionary.find? scope.bindings name with
    | some bound => bound
    | none =>
      match wellKnown? name with
      | some rule => rule.apply (firstSchema w expand scope args) (keysArgument args)
      | none =>
        match w.type? scope.file name with
        | some declaration => expand declaration (schemasOf w expand scope args)
        | none => .unconstrained
  | .reference (.qualified (.ident outer) name) args =>
    match enumMembers? (w.type? scope.file outer) with
    | some members => ((memberValue? members name).map Schema.literal).getD .unconstrained
    | none =>
      match w.qualifiedType? scope.file outer name with
      | some declaration => expand declaration (schemasOf w expand scope args)
      | none => .unconstrained
  | .reference (.qualified (.qualified _ _) _) _ => .unconstrained
  | .literal value => literalSchema value
  | .object members => .object (.insertAll .empty (entriesOf w expand scope members))
  | .array items => .array (schemaOf w expand scope items)
  | .tuple elements => tupleSchema (schemasOf w expand scope elements)
  | .optional type => schemaOf w expand scope type
  | .rest type => restSchema (schemaOf w expand scope type)
  | .union members => Schema.union (definedSchemasOf w expand scope members)
  | .intersection members => intersectionSchema (schemasOf w expand scope members)
  | .paren type => schemaOf w expand scope type
  | .readonly type => schemaOf w expand scope type
  | .keyof type => keysSchema (schemaOf w expand scope type)
  | .indexed object index => indexedSchema (schemaOf w expand scope object) index
  | .mapped => .anyObject
  | .predicate => .boolean
  | .function _ => .unconstrained
  | .other => .unconstrained

/-- The schemas of several types. -/
def schemasOf (w : Workspace) (expand : Expand) (scope : Scope) : List TypeExpr → List Schema
  | [] => []
  | type :: rest => schemaOf w expand scope type :: schemasOf w expand scope rest

/-- The schemas of those types that do not stand for a missing value. -/
def definedSchemasOf (w : Workspace) (expand : Expand) (scope : Scope) :
    List TypeExpr → List Schema
  | [] => []
  | type :: rest =>
    if isUndefined type then definedSchemasOf w expand scope rest
    else schemaOf w expand scope type :: definedSchemasOf w expand scope rest

/-- The schema of the first of several types. -/
def firstSchema (w : Workspace) (expand : Expand) (scope : Scope) : List TypeExpr → Schema
  | [] => .unconstrained
  | type :: _ => schemaOf w expand scope type

/-- The schema of a declared type, if there is one. -/
def declaredSchema (w : Workspace) (expand : Expand) (scope : Scope) : Option TypeExpr → Schema
  | none => .unconstrained
  | some type => schemaOf w expand scope type

/-- The property that a member of an object type declares. Methods declare none. -/
def entryOf (w : Workspace) (expand : Expand) (scope : Scope) : TypeMember → Option PropertyEntry
  | .property _ key optional type =>
    key.name?.map fun name => ⟨name, declaredSchema w expand scope type, !optional⟩
  | .getter _ key type => key.name?.map fun name => ⟨name, declaredSchema w expand scope type, true⟩
  | .method _ _ _ _ => none
  | .other => none

/-- The properties that members of an object type declare. -/
def entriesOf (w : Workspace) (expand : Expand) (scope : Scope) :
    List TypeMember → List PropertyEntry
  | [] => []
  | member :: rest =>
    (entryOf w expand scope member).toList ++ entriesOf w expand scope rest

end

/-- The scope of a declaration's own types: every parameter stands for its argument, or for its
    default, in which the parameters before it may occur. -/
def bindParams (w : Workspace) (expand : Expand) :
    List TypeParam → (args : List Schema) → Scope → Scope
  | [], _, scope => scope
  | param :: params, args, scope =>
    let schema :=
      match args with
      | arg :: _ => arg
      | [] => declaredSchema w expand scope param.default
    bindParams w expand params args.tail (scope.bind param.name schema)

end ElementCatalog
