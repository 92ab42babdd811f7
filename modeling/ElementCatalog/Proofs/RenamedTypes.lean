import ElementCatalog.Proofs.ExpansionPaths
import ElementCatalog.Proofs.NameReadings
import Mathlib.Data.List.Forall2
import Mathlib.Logic.Function.Basic

/-!
# Renamed types — the same types under other names

A file that is renamed uses other names for the types that it declares and imports, and for its type
parameters; what it writes may then start at other places.  Property names and literals stay.
Toward: a renamed declaration has the schema of the declaration if renamed references have the
schemas of the references.  The route:

* a renaming changes a type expression name by name;
* by recursion on the type, nothing but its names decides what it is read to (`schemaOf_rename`);
* the parts of a declaration are related to their renamed parts, and its type parameters are bound
  alike.
-/

namespace ElementCatalog

open Source (Position EntityName TypeExpr TypeMember TypeParam Heritage EnumMember ClassDef
  InterfaceDecl)

namespace Source

/-! ## Renamed type expressions -/

/-- How the names in a file change. -/
structure Renaming where
  /-- The names that the file itself uses: of types, of imports and of type parameters. -/
  name : String → String
  /-- The names under which it exports. -/
  exported : String → String
  /-- The names that the modules which it links have outside. -/
  outside : (specifier : String) → String → String
  /-- The second parts of its qualified names. -/
  inner : (outer : String) → String → String
  /-- The places where something starts. -/
  move : Position → Position

/-- A name is renamed part by part. -/
def EntityName.rename (c : Renaming) : EntityName → EntityName
  | .ident name => .ident (c.name name)
  | .qualified (.ident outer) name => .qualified (.ident (c.name outer)) (c.inner outer name)
  | .qualified (.qualified left middle) name => .qualified (rename c (.qualified left middle)) name

mutual

/-- A type is renamed by renaming the names in it. -/
def TypeExpr.rename (c : Renaming) : TypeExpr → TypeExpr
  | .keyword keyword => .keyword keyword
  | .reference name args => .reference (name.rename c) (renameAll c args)
  | .literal value => .literal value
  | .object members => .object (renameMembers c members)
  | .array items => .array (items.rename c)
  | .tuple elements => .tuple (renameAll c elements)
  | .optional type => .optional (type.rename c)
  | .rest type => .rest (type.rename c)
  | .union members => .union (renameAll c members)
  | .intersection members => .intersection (renameAll c members)
  | .paren type => .paren (type.rename c)
  | .readonly type => .readonly (type.rename c)
  | .keyof type => .keyof (type.rename c)
  | .indexed object index => .indexed (object.rename c) (index.rename c)
  | .mapped => .mapped
  | .predicate => .predicate
  | .function parameter => .function (renameDeclared c parameter)
  | .other => .other

/-- Several types are renamed one by one. -/
def renameAll (c : Renaming) : List TypeExpr → List TypeExpr
  | [] => []
  | type :: rest => type.rename c :: renameAll c rest

/-- A declared type is renamed if there is one. -/
def renameDeclared (c : Renaming) : Option TypeExpr → Option TypeExpr
  | none => none
  | some type => some (type.rename c)

/-- A member keeps its key. -/
def TypeMember.rename (c : Renaming) : TypeMember → TypeMember
  | .property start key optional type =>
    .property (c.move start) key optional (renameDeclared c type)
  | .method start key optional parameter =>
    .method (c.move start) key optional (renameDeclared c parameter)
  | .getter start key type => .getter (c.move start) key (renameDeclared c type)
  | .other => .other

/-- Members are renamed one by one. -/
def renameMembers (c : Renaming) : List TypeMember → List TypeMember
  | [] => []
  | member :: rest => member.rename c :: renameMembers c rest

end

end Source

open Source (Renaming renameAll renameDeclared renameMembers)

namespace Types

/-! ## What names do not matter for -/

section Keys

variable (c : Renaming)

mutual

/-- A renamed type lists the same keys. -/
theorem literalKeys_rename : ∀ type : TypeExpr, literalKeys (type.rename c) = literalKeys type
  | .literal _ => rfl
  | .union members => by
      rw [TypeExpr.rename, literalKeys, literalKeys, literalKeysOfAll_rename members]
  | .paren type => by
      rw [TypeExpr.rename, literalKeys, literalKeys, literalKeys_rename type]
  | .keyword _ | .reference _ _ | .object _ | .array _ | .tuple _ | .optional _ | .rest _
  | .intersection _ | .readonly _ | .keyof _ | .indexed _ _ | .mapped | .predicate | .function _
  | .other => rfl

/-- Renamed types list the same keys. -/
theorem literalKeysOfAll_rename : ∀ types : List TypeExpr,
    literalKeysOfAll (renameAll c types) = literalKeysOfAll types
  | [] => rfl
  | type :: rest => by
      rw [renameAll, literalKeysOfAll, literalKeysOfAll, literalKeys_rename type,
        literalKeysOfAll_rename rest]

end

/-- Renamed arguments list the same keys. -/
theorem keysArgument_rename (args : List TypeExpr) :
    keysArgument (renameAll c args) = keysArgument args := by
  match args with
  | [] => rfl
  | [_] => rfl
  | _ :: keys :: _ => exact literalKeys_rename c keys

/-- A renamed type stands for a missing value if the type does. -/
theorem isUndefined_rename (type : TypeExpr) : isUndefined (type.rename c) = isUndefined type := by
  cases type <;> rfl

/-- A renamed index selects the same. -/
theorem indexedSchema_rename (schema : Schema) (index : TypeExpr) :
    indexedSchema schema (index.rename c) = indexedSchema schema index := by
  cases index with
  | literal | keyword => rfl
  | _ => cases schema <;> rfl

end Keys

/-! ## What is read -/

/-- Renamed references with like arguments have the schemas of the references. -/
structure NamesCarried (c : Renaming) (w w' : Workspace) (expand expand' : Expand)
    (scope scope' : Scope) : Prop where
  named : ∀ name args,
    schemasOf w' expand' scope' (renameAll c args) = schemasOf w expand scope args →
      schemaOf w' expand' scope' (.reference (.ident (c.name name)) (renameAll c args)) =
        schemaOf w expand scope (.reference (.ident name) args)
  qualified : ∀ outer name args,
    schemasOf w' expand' scope' (renameAll c args) = schemasOf w expand scope args →
      schemaOf w' expand' scope'
          (.reference (.qualified (.ident (c.name outer)) (c.inner outer name))
            (renameAll c args)) =
        schemaOf w expand scope (.reference (.qualified (.ident outer) name) args)

section Reading

variable {c : Renaming} {w w' : Workspace} {expand expand' : Expand} {scope scope' : Scope}

mutual

/-- A renamed type has the schema of the type if renamed references have those of the references. -/
theorem schemaOf_rename (h : NamesCarried c w w' expand expand' scope scope') :
    ∀ type : TypeExpr,
      schemaOf w' expand' scope' (type.rename c) = schemaOf w expand scope type
  | .reference (.ident name) args => h.named name args (schemasOf_rename h args)
  | .reference (.qualified (.ident outer) name) args =>
      h.qualified outer name args (schemasOf_rename h args)
  | .reference (.qualified (.qualified left middle) name) args => by
      rw [TypeExpr.rename, EntityName.rename]
      cases left <;> rw [EntityName.rename, schemaOf, schemaOf]
  | .object members => by
      rw [TypeExpr.rename, schemaOf, schemaOf, entriesOf_rename h members]
  | .tuple types => by
      rw [TypeExpr.rename, schemaOf, schemaOf, schemasOf_rename h types]
  | .intersection types => by
      rw [TypeExpr.rename, schemaOf, schemaOf, schemasOf_rename h types]
  | .union types => by
      rw [TypeExpr.rename, schemaOf, schemaOf, definedSchemasOf_rename h types]
  | .indexed object index => by
      rw [TypeExpr.rename, schemaOf, schemaOf, schemaOf_rename h object, indexedSchema_rename]
  | .array type | .optional type | .rest type | .paren type | .readonly type | .keyof type => by
      rw [TypeExpr.rename, schemaOf, schemaOf, schemaOf_rename h type]
  | .keyword _ | .literal _ | .mapped | .predicate | .function _ | .other => by
      rw [TypeExpr.rename, schemaOf, schemaOf]

/-- Several types have the same schemas renamed. -/
theorem schemasOf_rename (h : NamesCarried c w w' expand expand' scope scope') :
    ∀ types : List TypeExpr,
      schemasOf w' expand' scope' (renameAll c types) = schemasOf w expand scope types
  | [] => rfl
  | type :: rest => by
      rw [renameAll, schemasOf, schemasOf, schemaOf_rename h type, schemasOf_rename h rest]

/-- The types that stand for a value have the same schemas renamed. -/
theorem definedSchemasOf_rename (h : NamesCarried c w w' expand expand' scope scope') :
    ∀ types : List TypeExpr,
      definedSchemasOf w' expand' scope' (renameAll c types) =
        definedSchemasOf w expand scope types
  | [] => rfl
  | type :: rest => by
      rw [renameAll, definedSchemasOf, definedSchemasOf, isUndefined_rename,
        schemaOf_rename h type, definedSchemasOf_rename h rest]

/-- A declared type has the same schema renamed. -/
theorem declaredSchema_rename (h : NamesCarried c w w' expand expand' scope scope') :
    ∀ type : Option TypeExpr,
      declaredSchema w' expand' scope' (renameDeclared c type) =
        declaredSchema w expand scope type
  | none => rfl
  | some type => by
      rw [renameDeclared, declaredSchema, declaredSchema, schemaOf_rename h type]

/-- A member declares the same property renamed. -/
theorem entryOf_rename (h : NamesCarried c w w' expand expand' scope scope') :
    ∀ member : TypeMember,
      entryOf w' expand' scope' (member.rename c) = entryOf w expand scope member
  | .property _ _ _ type | .getter _ _ type => by
      rw [TypeMember.rename, entryOf, entryOf, declaredSchema_rename h type]
  | .method _ _ _ _ | .other => rfl

/-- Members declare the same properties renamed. -/
theorem entriesOf_rename (h : NamesCarried c w w' expand expand' scope scope') :
    ∀ members : List TypeMember,
      entriesOf w' expand' scope' (renameMembers c members) = entriesOf w expand scope members
  | [] => rfl
  | member :: rest => by
      rw [renameMembers, entriesOf, entriesOf, entryOf_rename h member, entriesOf_rename h rest]

end

end Reading

end Types

/-! ## Renamed declarations -/

/-- A file stands at the same place of its program as another one, under the same path. -/
structure SourceFile.SamePlace (file file' : SourceFile) : Prop where
  id : file'.id = file.id
  path : file'.path = file.path

/-- The type parameters of one scope, renamed, stand in another one for the same. -/
def Scope.Renamed (c : Renaming) (scope scope' : Scope) : Prop :=
  ∀ name, Dictionary.find? scope'.bindings (c.name name) = Dictionary.find? scope.bindings name

/-- A type parameter is another one renamed. -/
structure Source.TypeParam.Renamed (c : Renaming) (p p' : TypeParam) : Prop where
  name : p'.name = c.name p.name
  default : p'.default = renameDeclared c p.default

/-- A heritage clause is another one renamed. -/
structure Source.Heritage.Renamed (c : Renaming) (h h' : Heritage) : Prop where
  name : h'.name? = h.name?.map (·.rename c)
  args : h'.args.map (·.type) = renameAll c (h.args.map (·.type))

/-- A field of a class is another one with its type renamed. -/
structure Types.ClassField.Renamed (c : Renaming) (field field' : Types.ClassField) : Prop where
  name : field'.name = field.name
  optional : field'.optional = field.optional
  type : field'.type = renameDeclared c field.type

/-- What a type declaration declares, renamed as far as its schema goes: initializers of an
    enumeration may change if its values do not, and of a class only the public fields matter. -/
inductive DeclarationNode.Renamed (c : Renaming) : DeclarationNode → DeclarationNode → Prop where
  | interfaceNode {decl decl' : InterfaceDecl}
    (params : List.Forall₂ (TypeParam.Renamed c) decl.params decl'.params)
    (parents : List.Forall₂ (Heritage.Renamed c) decl.parents decl'.parents)
    (members : decl'.members = renameMembers c decl.members) :
    Renamed c (.interfaceNode decl) (.interfaceNode decl')
  | aliasNode {decl decl' : Source.AliasDecl}
    (params : List.Forall₂ (TypeParam.Renamed c) decl.params decl'.params)
    (type : decl'.type.type = decl.type.type.rename c) :
    Renamed c (.aliasNode decl) (.aliasNode decl')
  | enumNode {members members' : List EnumMember}
    (values : Types.memberValues members' = Types.memberValues members) :
    Renamed c (.enumNode members) (.enumNode members')
  | classNode {value value' : ClassDef}
    (params : List.Forall₂ (TypeParam.Renamed c) value.params value'.params)
    (fields : List.Forall₂ (Types.ClassField.Renamed c) (Types.classFields value)
      (Types.classFields value')) :
    Renamed c (.classNode value) (.classNode value')

/-- A declaration is another one renamed as its file is. -/
structure Declaration.Renamed (c : Nat → Renaming) (d d' : Declaration) : Prop where
  file : d.file.SamePlace d'.file
  start : d'.start = (c d.file.id).move d.start
  node : d.node.Renamed (c d.file.id) d'.node

/-- Binding a renamed type parameter. -/
theorem Scope.Renamed.bind {c : Renaming} {scope scope' : Scope}
    (hname : Function.Injective c.name) (h : scope.Renamed c scope') (name : String)
    (schema : Schema) : (scope.bind name schema).Renamed c (scope'.bind (c.name name) schema) := by
  intro other
  rw [Scope.bind, Scope.bind, Dictionary.find?_set, Dictionary.find?_set, h other]
  exact if_congr hname.eq_iff rfl rfl

namespace Types

/-- The members of a renamed enumeration have the same values. -/
theorem enumMembers?_renamed {c : Nat → Renaming} {R : Declaration → Declaration → Prop}
    (hrenamed : ∀ d d', R d d' → d.Renamed c d') {found found' : Option Declaration}
    (h : Option.Rel R found found') :
    (enumMembers? found').map memberValues = (enumMembers? found).map memberValues := by
  cases h with
  | none => rfl
  | @some d d' hd =>
      have hnode := (hrenamed d d' hd).node
      obtain ⟨name, file, node, anchors, start⟩ := d
      obtain ⟨name', file', node', anchors', start'⟩ := d'
      cases hnode with
      | enumNode values => exact congrArg some values
      | interfaceNode | aliasNode | classNode => rfl

section Declarations

variable {c : Renaming} {w w' : Workspace} {expand expand' : Expand} {scope scope' : Scope}

/-- Between two files, renamed references have the schemas of the references, whatever a scope
    binds. -/
def FileCarried (c : Renaming) (w w' : Workspace) (expand expand' : Expand)
    (file file' : SourceFile) : Prop :=
  ∀ {scope scope' : Scope}, scope.file = file → scope'.file = file' → scope.Renamed c scope' →
    NamesCarried c w w' expand expand' scope scope'

/-- Renamed type parameters are bound to the same, in scopes that agree on what is bound before. -/
theorem bindParams_renamed {file file' : SourceFile} (hname : Function.Injective c.name)
    (hcarried : FileCarried c w w' expand expand' file file') {params params' : List TypeParam}
    (hparams : List.Forall₂ (TypeParam.Renamed c) params params') : ∀ (args : List Schema)
      {scope scope' : Scope}, scope.file = file → scope'.file = file' → scope.Renamed c scope' →
        (bindParams w expand params args scope).Renamed c
          (bindParams w' expand' params' args scope') := by
  induction hparams with
  | nil => exact fun _ _ _ _ _ h => h
  | @cons p p' rest rest' hp _ ih =>
      intro args scope scope' hfile hfile' h
      cases args with
      | cons arg others =>
          rw [bindParams, bindParams, hp.name]
          exact ih others hfile hfile' (h.bind hname p.name arg)
      | nil =>
          rw [bindParams, bindParams, hp.name, hp.default,
            declaredSchema_rename (hcarried hfile hfile' h)]
          exact ih [] hfile hfile' (h.bind hname p.name _)

/-- A renamed interface has the same schema. -/
theorem interfaceSchema_renamed (h : NamesCarried c w w' expand expand' scope scope')
    {decl decl' : InterfaceDecl}
    (hparents : List.Forall₂ (Heritage.Renamed c) decl.parents decl'.parents)
    (hmembers : decl'.members = renameMembers c decl.members) :
    interfaceSchema w' expand' scope' decl' = interfaceSchema w expand scope decl := by
  have hclauses : List.Forall₂ Eq
      (decl.parents.filterMap fun parent => parent.name?.bind fun name =>
        object? (schemaOf w expand scope (.reference name (parent.args.map (·.type)))))
      (decl'.parents.filterMap fun parent => parent.name?.bind fun name =>
        object? (schemaOf w' expand' scope' (.reference name (parent.args.map (·.type))))) := by
    refine List.rel_filterMap (fun parent parent' hparent => ?_) hparents
    rw [hparent.name, hparent.args]
    cases parent.name? with
    | none => exact .none
    | some name =>
        dsimp only [Option.map_some, Option.bind_some]
        have hclause := schemaOf_rename h (.reference name (parent.args.map (·.type)))
        rw [TypeExpr.rename] at hclause
        rw [hclause]
        cases object? (schemaOf w expand scope (.reference name (parent.args.map (·.type)))) with
        | none => exact .none
        | some object => exact .some rfl
  rw [List.forall₂_eq_eq_eq] at hclauses
  rw [interfaceSchema, interfaceSchema, hclauses, hmembers, entriesOf_rename h]

/-- The instances of a renamed class have the same schema. -/
theorem classSchema_renamed (h : NamesCarried c w w' expand expand' scope scope')
    {value value' : ClassDef}
    (hfields : List.Forall₂ (ClassField.Renamed c) (classFields value) (classFields value')) :
    classSchema w' expand' scope' value' = classSchema w expand scope value := by
  have hentries : List.Forall₂ Eq
      ((classFields value).map fun field => (⟨field.name,
        declaredSchema w expand scope field.type, !field.optional⟩ : PropertyEntry))
      ((classFields value').map fun field =>
        ⟨field.name, declaredSchema w' expand' scope' field.type, !field.optional⟩) := by
    refine List.rel_map (fun field field' hfield => ?_) hfields
    rw [hfield.name, hfield.optional, hfield.type, declaredSchema_rename h]
  rw [List.forall₂_eq_eq_eq] at hentries
  rw [classSchema, classSchema, hentries]

/-- A renamed declaration has the same schema if renamed references in its file have those of the
    references. -/
theorem declarationSchema_renamed {c : Nat → Renaming} {d d' : Declaration} (hd : d.Renamed c d')
    (hname : Function.Injective (c d.file.id).name)
    (hcarried : FileCarried (c d.file.id) w w' expand expand' d.file d'.file)
    (args : List Schema) :
    declarationSchema w' expand' d' args = declarationSchema w expand d args := by
  -- The type parameters are bound first, and what is bound does not change the file.
  have hinner {params params' : List TypeParam}
      (hparams : List.Forall₂ (TypeParam.Renamed (c d.file.id)) params params') :
      NamesCarried (c d.file.id) w w' expand expand'
        (bindParams w expand params args (.ofFile d.file))
        (bindParams w' expand' params' args (.ofFile d'.file)) :=
    hcarried (file_bindParams w expand params args _) (file_bindParams w' expand' params' args _)
      (bindParams_renamed hname hcarried hparams args rfl rfl fun _ => rfl)
  have hnode := hd.node
  obtain ⟨name, file, node, anchors, start⟩ := d
  obtain ⟨name', file', node', anchors', start'⟩ := d'
  cases hnode with
  | interfaceNode params parents members =>
      exact interfaceSchema_renamed (hinner params) parents members
  | @aliasNode decl decl' params type =>
      have htype := schemaOf_rename (hinner params) decl.type.type
      rw [← type] at htype
      exact htype
  | @enumNode members members' values =>
      show enumerationSchema members' = enumerationSchema members
      rw [enumerationSchema, enumerationSchema, values]
  | classNode params fields => exact classSchema_renamed (hinner params) fields

end Declarations

end Types

end ElementCatalog
