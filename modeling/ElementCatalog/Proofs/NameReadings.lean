import ElementCatalog.Types.Expansion

/-!
# Readings that differ in what names mean

The schema of a type is put together by its form; only names are looked up.  So two readings, also
in two workspaces, have the same schema for every type if they have the same schema for the names in
it. The route: one lemma for each part of a type expression, under the hypothesis that references
whose arguments are read alike are read alike.
-/

namespace ElementCatalog

open Source (TypeExpr TypeMember InterfaceDecl ClassDef)

namespace Types

/-- Two readings give references with like arguments the same schemas. -/
structure NamesAlike (w w' : Workspace) (expand expand' : Expand) (scope scope' : Scope) :
    Prop where
  named : ∀ name args, schemasOf w expand scope args = schemasOf w' expand' scope' args →
    schemaOf w expand scope (.reference (.ident name) args) =
      schemaOf w' expand' scope' (.reference (.ident name) args)
  qualified : ∀ outer name args, schemasOf w expand scope args = schemasOf w' expand' scope' args →
    schemaOf w expand scope (.reference (.qualified (.ident outer) name) args) =
      schemaOf w' expand' scope' (.reference (.qualified (.ident outer) name) args)

/-- The schema of the first of several types is the first of their schemas. -/
theorem firstSchema_eq (w : Workspace) (expand : Expand) (scope : Scope) (args : List TypeExpr) :
    firstSchema w expand scope args = (schemasOf w expand scope args).headD .unconstrained := by
  cases args <;> rfl

section Lists

variable {w : Workspace} {expand : Expand} {scope : Scope}

/-- The schemas of several types are those of each. -/
theorem schemasOf_eq_map (types : List TypeExpr) :
    schemasOf w expand scope types = types.map (schemaOf w expand scope) := by
  induction types with
  | nil => rfl
  | cons type rest ih => rw [schemasOf, ih, List.map_cons]

/-- The schemas in a union are those of the members that do not stand for a missing value. -/
theorem definedSchemasOf_eq_map (types : List TypeExpr) :
    definedSchemasOf w expand scope types =
      (types.filter fun type => !isUndefined type).map (schemaOf w expand scope) := by
  induction types with
  | nil => rfl
  | cons type rest ih =>
      rw [definedSchemasOf, List.filter_cons, ih]
      cases isUndefined type <;> rfl

/-- The schemas in a union around one of its members. -/
theorem definedSchemasOf_insert (expand : Expand) (before after : List TypeExpr) {type : TypeExpr}
    (hdefined : isUndefined type = false) :
    definedSchemasOf w expand scope (before ++ type :: after) =
      definedSchemasOf w expand scope before ++
        schemaOf w expand scope type :: definedSchemasOf w expand scope after := by
  simp only [definedSchemasOf_eq_map, List.filter_append, List.filter_cons, hdefined,
    Bool.not_false, if_true, List.map_append, List.map_cons]

end Lists

section Alike

variable {w w' : Workspace} {expand expand' : Expand} {scope scope' : Scope}

mutual

/-- A type is read alike where names are. -/
theorem schemaOf_alike (h : NamesAlike w w' expand expand' scope scope') : ∀ type : TypeExpr,
    schemaOf w expand scope type = schemaOf w' expand' scope' type
  | .reference (.ident name) args => h.named name args (schemasOf_alike h args)
  | .reference (.qualified (.ident outer) name) args =>
      h.qualified outer name args (schemasOf_alike h args)
  | .object members => by
      rw [schemaOf, schemaOf, entriesOf_alike h members]
  | .tuple types => by
      rw [schemaOf, schemaOf, schemasOf_alike h types]
  | .intersection types => by
      rw [schemaOf, schemaOf, schemasOf_alike h types]
  | .union types => by
      rw [schemaOf, schemaOf, definedSchemasOf_alike h types]
  | .array type | .optional type | .rest type | .paren type | .readonly type | .keyof type
  | .indexed type _ => by
      rw [schemaOf, schemaOf, schemaOf_alike h type]
  | .reference (.qualified (.qualified _ _) _) _ | .keyword _ | .literal _ | .mapped | .predicate
  | .function _ | .other => by
      rw [schemaOf, schemaOf]

/-- Several types are read alike where names are. -/
theorem schemasOf_alike (h : NamesAlike w w' expand expand' scope scope') :
    ∀ types : List TypeExpr, schemasOf w expand scope types = schemasOf w' expand' scope' types
  | [] => rfl
  | type :: rest => by
      rw [schemasOf, schemasOf, schemaOf_alike h type, schemasOf_alike h rest]

/-- The types that stand for a value are read alike where names are. -/
theorem definedSchemasOf_alike (h : NamesAlike w w' expand expand' scope scope') :
    ∀ types : List TypeExpr,
      definedSchemasOf w expand scope types = definedSchemasOf w' expand' scope' types
  | [] => rfl
  | type :: rest => by
      rw [definedSchemasOf, definedSchemasOf, schemaOf_alike h type,
        definedSchemasOf_alike h rest]

/-- A declared type is read alike where names are. -/
theorem declaredSchema_alike (h : NamesAlike w w' expand expand' scope scope') :
    ∀ type : Option TypeExpr,
      declaredSchema w expand scope type = declaredSchema w' expand' scope' type
  | none => rfl
  | some type => by
      rw [declaredSchema, declaredSchema, schemaOf_alike h type]

/-- The property of a member of an object type is read alike where names are. -/
theorem entryOf_alike (h : NamesAlike w w' expand expand' scope scope') : ∀ member : TypeMember,
    entryOf w expand scope member = entryOf w' expand' scope' member
  | .property _ _ _ type | .getter _ _ type => by
      rw [entryOf, entryOf, declaredSchema_alike h type]
  | .method _ _ _ _ | .other => rfl

/-- The properties of members of an object type are read alike where names are. -/
theorem entriesOf_alike (h : NamesAlike w w' expand expand' scope scope') :
    ∀ members : List TypeMember,
      entriesOf w expand scope members = entriesOf w' expand' scope' members
  | [] => rfl
  | member :: rest => by
      rw [entriesOf, entriesOf, entryOf_alike h member, entriesOf_alike h rest]

end

/-- The schema of an interface is read alike where names are. -/
theorem interfaceSchema_alike (h : NamesAlike w w' expand expand' scope scope')
    (decl : InterfaceDecl) :
    interfaceSchema w expand scope decl = interfaceSchema w' expand' scope' decl := by
  simp only [interfaceSchema, schemaOf_alike h, entriesOf_alike h]

/-- The schema of the instances of a class is read alike where names are. -/
theorem classSchema_alike (h : NamesAlike w w' expand expand' scope scope') (value : ClassDef) :
    classSchema w expand scope value = classSchema w' expand' scope' value := by
  simp only [classSchema, declaredSchema_alike h]

end Alike

end Types

end ElementCatalog
