import ElementCatalog.Types.Shape

/-!
# Expansion — what a declared type stands for

A declaration is expanded in a scope of its own, in which its type parameters stand for the
arguments. The declarations that are being expanded are handed down, and one that is met again
inside its own expansion is left open there. So an expansion never nests deeper than there are
declarations.
-/

namespace ElementCatalog

open Source (TypeExpr ClassDef ClassMember InterfaceDecl AliasDecl)
open ElementCatalog.Types

namespace Types

/-- A public field of the instances of a class. -/
structure ClassField where
  name : String
  type : Option TypeExpr
  optional : Bool
  start : Source.Position

/-- The field that a member of a class declares. -/
def ClassField.ofMember? : ClassMember → Option ClassField
  | .field start modifiers _ key type _ =>
    if !modifiers.isStatic && modifiers.isPublic then
      key.name?.map fun name => ⟨name, type.map (·.type), modifiers.optional, start⟩
    else none
  | _ => none

/-- The public fields of the instances of a class. -/
def classFields (value : ClassDef) : List ClassField :=
  value.members.filterMap ClassField.ofMember?

/-! ## Schemas -/

/-- The schema of an interface: what it inherits, and its own members over it. -/
def interfaceSchema (w : Workspace) (expand : Expand) (scope : Scope) (decl : InterfaceDecl) :
    Schema :=
  let inherited := decl.parents.filterMap fun parent =>
    parent.name?.bind fun name =>
      object? (schemaOf w expand scope (.reference name (parent.args.map (·.type))))
  let own := ObjectSchema.insertAll .empty (entriesOf w expand scope decl.members)
  .object ((inherited.foldl ObjectSchema.merge .empty).merge own)

/-- The schema of the instances of a class. -/
def classSchema (w : Workspace) (expand : Expand) (scope : Scope) (value : ClassDef) : Schema :=
  .object (.insertAll .empty ((classFields value).map fun field =>
    ⟨field.name, declaredSchema w expand scope field.type, !field.optional⟩))

/-- The schema of a declaration with arguments. -/
def declarationSchema (w : Workspace) (expand : Expand) (d : Declaration) (args : List Schema) :
    Schema :=
  let scope := Scope.ofFile d.file
  match d.node with
  | .interfaceNode decl =>
    interfaceSchema w expand (bindParams w expand decl.params args scope) decl
  | .aliasNode decl => schemaOf w expand (bindParams w expand decl.params args scope) decl.type.type
  | .enumNode members => enumerationSchema members
  | .classNode value => classSchema w expand (bindParams w expand value.params args scope) value
  | .functionNode _ => .unconstrained
  | .variableNode _ _ => .unconstrained

/-! ## Members -/

/-- The members of an interface: what it inherits by plain names, and its own members over it. -/
def interfaceMembers (w : Workspace) (e : Expander) (scope : Scope) (decl : InterfaceDecl) :
    List ShapeMember :=
  let inherited := decl.parents.map fun parent =>
    match parent.name? with
    | some (.ident name) => namedMembers w e scope name (parent.args.map (·.type))
    | _ => []
  mergeMembers (inherited.foldl mergeMembers []) (ownMembers w e scope decl.members)

/-- The members of the instances of a class. -/
def classMembers (w : Workspace) (e : Expander) (scope : Scope) (value : ClassDef) :
    List ShapeMember :=
  (classFields value).map fun field =>
    ⟨field.name, field.optional, field.type, field.type.bind (callbackOf? w e scope), field.start,
      scope⟩

/-- The members of a declaration with arguments. -/
def declarationMembers (w : Workspace) (e : Expander) (d : Declaration) (args : List Schema) :
    List ShapeMember :=
  let scope := Scope.ofFile d.file
  match d.node with
  | .interfaceNode decl =>
    interfaceMembers w e (bindParams w e.schema decl.params args scope) decl
  | .aliasNode decl => membersOf w e (bindParams w e.schema decl.params args scope) decl.type.type
  | .classNode value => classMembers w e (bindParams w e.schema value.params args scope) value
  | .enumNode _ => []
  | .functionNode _ => []
  | .variableNode _ _ => []

/-! ## Callbacks -/

/-- The callback that an alias with arguments stands for. The arguments are read in the scope of the
    reference. -/
def aliasCallback? (w : Workspace) (e : Expander) (d : Declaration) (args : List TypeExpr)
    (scope : Scope) : Option Callback :=
  match d.node with
  | .aliasNode decl =>
    let schemas := schemasOf w e.schema scope args
    callbackOf? w e (bindParams w e.schema decl.params schemas (.ofFile d.file)) decl.type.type
  | _ => none

/-! ## Nesting -/

/-- The expander inside the expansion of the `opened` declarations, nesting at most `depth` deep. -/
def expanderWithin (w : Workspace) : (depth : Nat) → (opened : List DeclarationKey) → Expander
  | 0, _ =>
    { schema := fun _ _ => .unconstrained, members := fun _ _ => [], callback := fun _ _ _ => none }
  | depth + 1, opened =>
    let inside (d : Declaration) : Expander := expanderWithin w depth (d.key :: opened)
    { schema := fun d args =>
        if opened.contains d.key then .unconstrained
        else declarationSchema w (inside d).schema d args
      members := fun d args =>
        if opened.contains d.key then [] else declarationMembers w (inside d) d args
      callback := fun d args scope =>
        if opened.contains d.key then none else aliasCallback? w (inside d) d args scope }

end Types

namespace Workspace

/-- The number of declarations of types. -/
def typeCount (w : Workspace) : Nat :=
  (w.symbols.toList.flatMap FileSymbols.types).length

/-- The expander of a workspace. -/
def expander (w : Workspace) : Expander :=
  expanderWithin w (w.typeCount + 1) []

/-- The schema of a type that is read in a scope. -/
def schemaIn (w : Workspace) (scope : Scope) (type : TypeExpr) : Schema :=
  schemaOf w w.expander.schema scope type

/-- The members of a type that is read in a scope. -/
def membersIn (w : Workspace) (scope : Scope) (type : TypeExpr) : List ShapeMember :=
  membersOf w w.expander scope type

/-- The members of the type that a name with arguments stands for in a scope. -/
def namedMembersIn (w : Workspace) (scope : Scope) (name : String) (args : List TypeExpr) :
    List ShapeMember :=
  namedMembers w w.expander scope name args

/-- The schema of a callback's payload: that of its first parameter, if it has one. -/
def payloadOf (w : Workspace) (callback : Callback) : Option Schema :=
  callback.parameter.map (w.schemaIn callback.scope)

end Workspace

end ElementCatalog
