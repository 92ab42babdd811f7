import ElementCatalog.Component.Surface

/-!
# Resolvers — reading types with one set of open declarations

A resolver keeps one set of the declarations that are being expanded. It adds a declaration before
it looks into it, removes it afterwards, and leaves one that it meets inside its own expansion open.
Schemas, members and callbacks share the set, and one resolver may read several types. The number of
expansions that may stand inside one another is counted; a reading that needs more fails.
-/

namespace ElementCatalog

open Source (TypeExpr TypeMember TypeParam Heritage ClassDef InterfaceDecl)
open ElementCatalog.Types

/-- Reading with the set of the declarations that are being expanded. -/
abbrev Reading (α : Type) := StateT (List DeclarationKey) Option α

/-- Read while a declaration is open. If it is open already, nothing is read and the reading gives a
    value of its own. -/
def Reading.whileOpen {α : Type} (d : Declaration) (closed : α) (read : Reading α) : Reading α := do
  let opened ← get
  if opened.contains d.key then pure closed
  else
    set (d.key :: opened)
    let value ← read
    modify fun opened => opened.erase d.key
    pure value

/-- The ways to look into a declaration while others are open. -/
structure Resolver where
  expand : Declaration → List Schema → Reading Schema
  members : Declaration → List Schema → Reading (List ShapeMember)
  callback : Declaration → List TypeExpr → Scope → Reading (Option Callback)

namespace Resolver

/-! ## Schemas -/

mutual

/-- Read the schema of a type. -/
def schema (w : Workspace) (r : Resolver) (scope : Scope) : TypeExpr → Reading Schema
  | .keyword keyword => pure (keywordSchema keyword)
  | .reference (.ident name) args =>
    match Dictionary.find? scope.bindings name with
    | some bound => pure bound
    | none =>
      match wellKnown? name with
      | some (.fixed known) => pure known
      | some rule => do
        let first ← first w r scope args
        pure (rule.apply first (keysArgument args))
      | none =>
        match w.type? scope.file name with
        | some declaration => do
          let args ← schemas w r scope args
          r.expand declaration args
        | none => pure .unconstrained
  | .reference (.qualified (.ident outer) name) args =>
    match enumMembers? (w.type? scope.file outer) with
    | some members => pure (((memberValue? members name).map Schema.literal).getD .unconstrained)
    | none =>
      match w.qualifiedType? scope.file outer name with
      | some declaration => do
        let args ← schemas w r scope args
        r.expand declaration args
      | none => pure .unconstrained
  | .reference (.qualified (.qualified _ _) _) _ => pure .unconstrained
  | .literal value => pure (literalSchema value)
  | .object members => do
    let entries ← entries w r scope members
    pure (.object (.insertAll .empty entries))
  | .array items => do
    let items ← schema w r scope items
    pure (.array items)
  | .tuple elements => do
    let elements ← schemas w r scope elements
    pure (tupleSchema elements)
  | .optional type => schema w r scope type
  | .rest type => do
    let rest ← schema w r scope type
    pure (restSchema rest)
  | .union members => do
    let members ← definedSchemas w r scope members
    pure (Schema.union members)
  | .intersection members => intersection w r scope .empty members
  | .paren type => schema w r scope type
  | .readonly type => schema w r scope type
  | .keyof type => do
    let object ← schema w r scope type
    pure (keysSchema object)
  | .indexed object index => do
    let object ← schema w r scope object
    pure (indexedSchema object index)
  | .mapped => pure .anyObject
  | .predicate => pure .boolean
  | .function _ => pure .unconstrained
  | .other => pure .unconstrained

/-- Read the schemas of several types. -/
def schemas (w : Workspace) (r : Resolver) (scope : Scope) : List TypeExpr → Reading (List Schema)
  | [] => pure []
  | type :: rest => do
    let first ← schema w r scope type
    let others ← schemas w r scope rest
    pure (first :: others)

/-- Read the schemas of those types that do not stand for a missing value. -/
def definedSchemas (w : Workspace) (r : Resolver) (scope : Scope) :
    List TypeExpr → Reading (List Schema)
  | [] => pure []
  | type :: rest =>
    if isUndefined type then definedSchemas w r scope rest
    else do
      let first ← schema w r scope type
      let others ← definedSchemas w r scope rest
      pure (first :: others)

/-- Read the members of an intersection up to the first one that is no object, and write them over
    one another. -/
def intersection (w : Workspace) (r : Resolver) (scope : Scope) (merged : ObjectSchema) :
    List TypeExpr → Reading Schema
  | [] => pure (.object merged)
  | type :: rest => do
    let first ← schema w r scope type
    match object? first with
    | some shape => intersection w r scope (merged.merge shape) rest
    | none => pure .unconstrained

/-- Read the schema of the first of several types. -/
def first (w : Workspace) (r : Resolver) (scope : Scope) : List TypeExpr → Reading Schema
  | [] => pure .unconstrained
  | type :: _ => schema w r scope type

/-- Read the schema of a declared type, if there is one. -/
def declared (w : Workspace) (r : Resolver) (scope : Scope) : Option TypeExpr → Reading Schema
  | none => pure .unconstrained
  | some type => schema w r scope type

/-- Read the property that a member of an object type declares. -/
def entry (w : Workspace) (r : Resolver) (scope : Scope) :
    TypeMember → Reading (Option PropertyEntry)
  | .property _ key optional type =>
    match key.name? with
    | some name => do
      let schema ← declared w r scope type
      pure (some ⟨name, schema, !optional⟩)
    | none => pure none
  | .getter _ key type =>
    match key.name? with
    | some name => do
      let schema ← declared w r scope type
      pure (some ⟨name, schema, true⟩)
    | none => pure none
  | .method _ _ _ _ => pure none
  | .other => pure none

/-- Read the properties that members of an object type declare. -/
def entries (w : Workspace) (r : Resolver) (scope : Scope) :
    List TypeMember → Reading (List PropertyEntry)
  | [] => pure []
  | member :: rest => do
    let first ← entry w r scope member
    let others ← entries w r scope rest
    pure (first.toList ++ others)

end

/-- Read the scope of a declaration's own types. -/
def params (w : Workspace) (r : Resolver) : List TypeParam → List Schema → Scope → Reading Scope
  | [], _, scope => pure scope
  | param :: rest, args, scope => do
    let schema ←
      match args with
      | arg :: _ => pure arg
      | [] => declared w r scope param.default
    params w r rest args.tail (scope.bind param.name schema)

/-- Read what an interface inherits, later parents over earlier ones. -/
def inherited (w : Workspace) (r : Resolver) (scope : Scope) (merged : ObjectSchema) :
    List Heritage → Reading ObjectSchema
  | [] => pure merged
  | parent :: rest => do
    let schema ←
      match parent.name? with
      | some name => schema w r scope (.reference name (parent.args.map (·.type)))
      | none => pure .unconstrained
    match object? schema with
    | some shape => inherited w r scope (merged.merge shape) rest
    | none => inherited w r scope merged rest

/-- Read the public fields of a class. -/
def fields (w : Workspace) (r : Resolver) (scope : Scope) :
    List ClassField → Reading (List PropertyEntry)
  | [] => pure []
  | field :: rest => do
    let schema ← declared w r scope field.type
    let others ← fields w r scope rest
    pure (⟨field.name, schema, !field.optional⟩ :: others)

/-- Read the schema of a declaration with arguments. -/
def declaration (w : Workspace) (r : Resolver) (d : Declaration) (args : List Schema) :
    Reading Schema :=
  match d.node with
  | .interfaceNode decl => do
    let scope ← params w r decl.params args (.ofFile d.file)
    let merged ← inherited w r scope .empty decl.parents
    let own ← entries w r scope decl.members
    pure (.object (merged.merge (.insertAll .empty own)))
  | .aliasNode decl => do
    let scope ← params w r decl.params args (.ofFile d.file)
    schema w r scope decl.type.type
  | .enumNode members => pure (enumerationSchema members)
  | .classNode value => do
    let scope ← params w r value.params args (.ofFile d.file)
    let own ← fields w r scope (classFields value)
    pure (.object (.insertAll .empty own))
  | .functionNode _ => pure .unconstrained
  | .variableNode _ _ => pure .unconstrained

/-! ## Callbacks -/

/-- Read the callback that a reference to a type stands for. -/
def referencedSignature (w : Workspace) (r : Resolver) (scope : Scope) (name : String)
    (args : List TypeExpr) : Reading (Option Callback) :=
  if name = "Function" then pure (some ⟨none, scope⟩)
  else if (Dictionary.find? scope.bindings name).isSome then pure none
  else
    match w.type? scope.file name with
    | some declaration =>
      match declaration.node with
      | .aliasNode _ => r.callback declaration args scope
      | _ => pure none
    | none => pure (if isHandlerName name then some ⟨args.head?, scope⟩ else none)

mutual

/-- Read the callback that a type stands for. -/
def signature (w : Workspace) (r : Resolver) (scope : Scope) :
    TypeExpr → Reading (Option Callback)
  | .function parameter => pure (some ⟨parameter, scope⟩)
  | .paren type => signature w r scope type
  | .union members => soleSignature w r scope members
  | .reference (.ident name) args => referencedSignature w r scope name args
  | _ => pure none

/-- Read the callback that the only type with a value stands for. -/
def soleSignature (w : Workspace) (r : Resolver) (scope : Scope) :
    List TypeExpr → Reading (Option Callback)
  | [] => pure none
  | type :: rest =>
    if isNullish type then soleSignature w r scope rest
    else if rest.all isNullish then signature w r scope type
    else pure none

end

/-- Read the callback that a declared type stands for, if there is one. -/
def declaredSignature (w : Workspace) (r : Resolver) (scope : Scope) :
    Option TypeExpr → Reading (Option Callback)
  | none => pure none
  | some type => signature w r scope type

/-- Read the callback that an alias with arguments stands for. -/
def aliasSignature (w : Workspace) (r : Resolver) (d : Declaration) (args : List TypeExpr)
    (scope : Scope) : Reading (Option Callback) :=
  match d.node with
  | .aliasNode decl => do
    let args ← schemas w r scope args
    let own ← params w r decl.params args (.ofFile d.file)
    signature w r own decl.type.type
  | _ => pure none

/-! ## Members -/

/-- Read the member that a part of an object type declares. -/
def ownMember (w : Workspace) (r : Resolver) (scope : Scope) :
    TypeMember → Reading (Option ShapeMember)
  | .property start key optional type =>
    match key.name? with
    | some name => do
      let callback ← declaredSignature w r scope type
      pure (some ⟨name, optional, type, callback, start, scope⟩)
    | none => pure none
  | .method start key optional parameter =>
    pure (key.name?.map fun name =>
      ⟨name, optional, none, some ⟨parameter, scope⟩, start, scope⟩)
  | .getter start key type =>
    pure (key.name?.map fun name => ⟨name, false, type, none, start, scope⟩)
  | .other => pure none

/-- Read the members that the parts of an object type declare. -/
def ownShape (w : Workspace) (r : Resolver) (scope : Scope) :
    List TypeMember → Reading (List ShapeMember)
  | [] => pure []
  | member :: rest => do
    let first ← ownMember w r scope member
    let others ← ownShape w r scope rest
    pure (first.toList ++ others)

/-- Read the members of a declared type with arguments. -/
def declaredShape (w : Workspace) (r : Resolver) (scope : Scope) (args : List TypeExpr) :
    Option Declaration → Reading (List ShapeMember)
  | some declaration => do
    let args ← schemas w r scope args
    r.members declaration args
  | none => pure []

mutual

/-- Read the members of a type. -/
def shape (w : Workspace) (r : Resolver) (scope : Scope) : TypeExpr → Reading (List ShapeMember)
  | .object members => ownShape w r scope members
  | .paren type => shape w r scope type
  | .readonly type => shape w r scope type
  | .intersection members => mergedShape w r scope [] members
  | .reference (.ident name) args => namedShape w r scope name args
  | .reference (.qualified (.ident outer) name) args =>
    declaredShape w r scope args (w.qualifiedType? scope.file outer name)
  | _ => pure []

/-- Read the members of several types, later ones over earlier ones. -/
def mergedShape (w : Workspace) (r : Resolver) (scope : Scope) (merged : List ShapeMember) :
    List TypeExpr → Reading (List ShapeMember)
  | [] => pure merged
  | type :: rest => do
    let members ← shape w r scope type
    mergedShape w r scope (mergeMembers merged members) rest

/-- Read the members of the type that a name with arguments stands for. -/
def namedShape (w : Workspace) (r : Resolver) (scope : Scope) (name : String) :
    List TypeExpr → Reading (List ShapeMember)
  | [] =>
    match shapeChange? name with
    | some _ => pure []
    | none => declaredShape w r scope [] (w.type? scope.file name)
  | first :: rest =>
    match shapeChange? name with
    | some change => do
      let members ← shape w r scope first
      pure (change.apply (keysArgument (first :: rest)) members)
    | none => declaredShape w r scope (first :: rest) (w.type? scope.file name)

end

/-- Read the members of a named parent. -/
def parentShape (w : Workspace) (r : Resolver) (scope : Scope) (parent : Heritage) :
    Reading (List ShapeMember) :=
  match parent.name? with
  | some (.ident name) => namedShape w r scope name (parent.args.map (·.type))
  | _ => pure []

/-- Read the members of named parents, later ones over earlier ones. -/
def inheritedShape (w : Workspace) (r : Resolver) (scope : Scope) (merged : List ShapeMember) :
    List Heritage → Reading (List ShapeMember)
  | [] => pure merged
  | parent :: rest => do
    let members ← parentShape w r scope parent
    inheritedShape w r scope (mergeMembers merged members) rest

/-- Read the members that the public fields of a class declare. -/
def fieldShape (w : Workspace) (r : Resolver) (scope : Scope) :
    List ClassField → Reading (List ShapeMember)
  | [] => pure []
  | field :: rest => do
    let callback ← declaredSignature w r scope field.type
    let others ← fieldShape w r scope rest
    pure (⟨field.name, field.optional, field.type, callback, field.start, scope⟩ :: others)

/-- Read the members of a declaration with arguments. -/
def declarationShape (w : Workspace) (r : Resolver) (d : Declaration) (args : List Schema) :
    Reading (List ShapeMember) :=
  match d.node with
  | .interfaceNode decl => do
    let scope ← params w r decl.params args (.ofFile d.file)
    let inherited ← inheritedShape w r scope [] decl.parents
    let own ← ownShape w r scope decl.members
    pure (mergeMembers inherited own)
  | .aliasNode decl => do
    let scope ← params w r decl.params args (.ofFile d.file)
    shape w r scope decl.type.type
  | .classNode value => do
    let scope ← params w r value.params args (.ofFile d.file)
    fieldShape w r scope (classFields value)
  | .enumNode _ => pure []
  | .functionNode _ => pure []
  | .variableNode _ _ => pure []

end Resolver

/-! ## Nesting -/

/-- The resolver that stands at most `depth` expansions inside one another. -/
def resolverWithin (w : Workspace) : (depth : Nat) → Resolver
  | 0 =>
    { expand := fun d _ => .whileOpen d .unconstrained fun _ => none
      members := fun d _ => .whileOpen d [] fun _ => none
      callback := fun d _ _ => .whileOpen d none fun _ => none }
  | depth + 1 =>
    let inner : Resolver := resolverWithin w depth
    { expand := fun d args => .whileOpen d .unconstrained (inner.declaration w d args)
      members := fun d args => .whileOpen d [] (inner.declarationShape w d args)
      callback := fun d args scope => .whileOpen d none (inner.aliasSignature w d args scope) }

/-! ## Questions -/

/-- What a resolver can be asked: the schema or the members of a type, the members of the type that
    a name with arguments stands for, or the callback that a type stands for. -/
inductive TypeQuery where
  | schema (scope : Scope) (type : TypeExpr)
  | members (scope : Scope) (type : TypeExpr)
  | named (scope : Scope) (name : String) (args : List TypeExpr)
  | callback (scope : Scope) (type : TypeExpr)

/-- What a resolver answers. -/
inductive TypeAnswer where
  | schema (value : Schema)
  | members (shape : List ShapeMember)
  | callback (signature : Option Callback)

/-- Ask a resolver. -/
def Resolver.ask (w : Workspace) (r : Resolver) : TypeQuery → Reading TypeAnswer
  | .schema scope type => do
    let value ← r.schema w scope type
    pure (.schema value)
  | .members scope type => do
    let shape ← r.shape w scope type
    pure (.members shape)
  | .named scope name args => do
    let shape ← r.namedShape w scope name args
    pure (.members shape)
  | .callback scope type => do
    let signature ← r.signature w scope type
    pure (.callback signature)

/-- The answer of an expander. -/
def Expander.answer (w : Workspace) (e : Expander) : TypeQuery → TypeAnswer
  | .schema scope type => .schema (schemaOf w e.schema scope type)
  | .members scope type => .members (membersOf w e scope type)
  | .named scope name args => .members (namedMembers w e scope name args)
  | .callback scope type => .callback (callbackOf? w e scope type)

namespace Surface

/-- Read what a class implements with one resolver. -/
def readImplemented (w : Workspace) (r : Resolver) (scope : Scope) (s : Surface) :
    List Source.Heritage → Reading Surface
  | [] => pure s
  | parent :: rest => do
    let members ← r.parentShape w scope parent
    readImplemented w r scope (s.addShape members) rest

/-- Read a class with one resolver for the properties of its base class and for everything that it
    implements. -/
def readClassWith (s : Surface) (w : Workspace) (r : Resolver) (value : ClassDef) :
    Reading Surface := do
  let scope := Scope.ofFile s.file
  let base ←
    match basePropsType? value with
    | some type => r.shape w scope type
    | none => pure []
  readImplemented w r scope ({ s with implementedBy := some value }.addShape base) value.implemented

end Surface

end ElementCatalog
