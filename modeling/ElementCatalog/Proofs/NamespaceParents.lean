import ElementCatalog.Component.Surface
import ElementCatalog.Proofs.MergedShapes

/-!
# Parents by namespace — heritage clauses that name a type through a namespace import

A type that a module exports is named `T` after an import by name, and `ns.T` after an import of the
module as a namespace.  References and object schemas read both alike, but interfaces and classes
take members from clauses with plain names only.  Toward: a clause `ns.T` in the place of `T` keeps
the names of a shape exactly if everything that `T` brings in is also brought in elsewhere.  The
route:

* both spellings lead to the declaration that the module exports, so types and the schemas of
  interfaces are read alike;
* a clause `ns.T` brings in nothing, and a clause `T` brings in every name of `T`, since merging
  loses no names.
-/

namespace ElementCatalog

open Source (Heritage TypeUse TypeExpr InterfaceDecl ClassDef)
open ElementCatalog.Types

/-! ## Spellings -/

/-- The clause that names a type `T`. -/
def Source.Heritage.byName (name : String) (args : List TypeUse) : Heritage :=
  ⟨.ident name, args⟩

/-- The clause that names a type `ns.T`. -/
def Source.Heritage.byNamespace (outer name : String) (args : List TypeUse) : Heritage :=
  ⟨.member (.ident outer) name, args⟩

namespace Workspace

variable {w : Workspace} {file : SourceFile} {outer name : String} {d : Declaration}

/-- A file imports a type both by its name and in a namespace, from a module that exports it. -/
structure ImportsTwice (w : Workspace) (file : SourceFile) (outer name : String)
    (d : Declaration) : Prop where
  foreign : (w.symbolsOf file).declared? .type name = none
  exported : ∃ specifier target, (w.symbolsOf file).import? name = some ⟨name, name, specifier⟩ ∧
    (w.symbolsOf file).import? outer = some ⟨outer, "*", specifier⟩ ∧
    w.moduleFile? file specifier = some target ∧ w.exported? .type target name = some d

/-- The plain name leads to the exported declaration. -/
theorem ImportsTwice.type?_eq (h : w.ImportsTwice file outer name d) :
    w.type? file name = some d := by
  obtain ⟨specifier, target, himport, -, htarget, hd⟩ := h.exported
  rw [type?, resolve?, h.foreign, himport, Option.none_or, Option.bind_some, imported?]
  dsimp only
  rw [htarget, Option.bind_some, hd, Option.some_or]

/-- The qualified name leads to the exported declaration. -/
theorem ImportsTwice.qualifiedType?_eq (h : w.ImportsTwice file outer name d) :
    w.qualifiedType? file outer name = some d := by
  obtain ⟨specifier, target, -, himport, htarget, hd⟩ := h.exported
  rw [qualifiedType?, himport, Option.bind_eq_bind, Option.bind_some]
  dsimp only
  rw [htarget]
  exact hd

end Workspace

namespace Types

/-! ## What is read alike -/

section Alike

variable {w : Workspace} {scope : Scope} {outer name : String} {d : Declaration}

/-- References in both spellings have the same members. -/
theorem membersOf_byNamespace (e : Expander) (h : w.ImportsTwice scope.file outer name d)
    (hchange : shapeChange? name = none) (args : List TypeExpr) :
    membersOf w e scope (.reference (.qualified (.ident outer) name) args) =
      membersOf w e scope (.reference (.ident name) args) := by
  rw [membersOf, membersOf, h.qualifiedType?_eq]
  cases args with
  | nil => rw [namedMembers, hchange, h.type?_eq]
  | cons first rest => rw [namedMembers, hchange, h.type?_eq]

/-- References in both spellings have the same schema. -/
theorem schemaOf_byNamespace (expand : Expand) (h : w.ImportsTwice scope.file outer name d)
    (hbound : Dictionary.find? scope.bindings name = none) (hknown : wellKnown? name = none)
    (henum : enumMembers? (w.type? scope.file outer) = none) (args : List TypeExpr) :
    schemaOf w expand scope (.reference (.qualified (.ident outer) name) args) =
      schemaOf w expand scope (.reference (.ident name) args) := by
  rw [schemaOf, schemaOf, henum, h.qualifiedType?_eq, hbound, hknown, h.type?_eq]

/-- An interface has the same schema with a clause in either spelling. -/
theorem interfaceSchema_byNamespace (expand : Expand)
    (h : w.ImportsTwice scope.file outer name d)
    (hbound : Dictionary.find? scope.bindings name = none) (hknown : wellKnown? name = none)
    (henum : enumMembers? (w.type? scope.file outer) = none) (decl : InterfaceDecl)
    (before after : List Heritage) (args : List TypeUse) :
    interfaceSchema w expand scope
        { decl with parents := before ++ .byNamespace outer name args :: after } =
      interfaceSchema w expand scope
        { decl with parents := before ++ .byName name args :: after } := by
  have hclause := schemaOf_byNamespace expand h hbound hknown henum (args.map (·.type))
  simp only [interfaceSchema, List.filterMap_append, List.filterMap_cons,
    Heritage.byNamespace, Heritage.byName, Heritage.name?, Option.bind_some, hclause]

end Alike

/-! ## What clauses bring in -/

section Clauses

variable (w : Workspace) (e : Expander) (scope : Scope)

/-- Surfaces that shapes are added to one after another. -/
theorem shape_foldl_addShape (shapes : List (List ShapeMember)) : ∀ s : Surface,
    (shapes.foldl Surface.addShape s).shape = shapes.foldl mergeMembers s.shape := by
  induction shapes with
  | nil => exact fun _ => rfl
  | cons first rest ih => exact fun s => ih (s.addShape first)

/-- The shape of a class is merged from its base and its clauses. -/
theorem shape_readClass (s : Surface) (value : ClassDef) (implemented : List Heritage) :
    (s.readClass w { value with implemented := implemented }).shape =
      (implemented.map (clauseMembers w w.expander (.ofFile s.file))).foldl mergeMembers
        (s.readClass w { value with implemented := [] }).shape := by
  rw [Surface.readClass, Surface.readClass]
  exact shape_foldl_addShape _ _

variable (before after : List Heritage) (outer name : String) (args : List TypeUse)

/-- A clause with a qualified name brings nothing into the shape of an interface. -/
theorem interfaceMembers_byNamespace (decl : InterfaceDecl) :
    interfaceMembers w e scope
        { decl with parents := before ++ .byNamespace outer name args :: after } =
      interfaceMembers w e scope { decl with parents := before ++ after } := by
  simp only [interfaceMembers_eq, List.map_append, List.map_cons, List.foldl_append,
    List.foldl_cons]
  rfl

/-- A clause with a qualified name brings nothing into the input shape of a class. -/
theorem shape_readClass_byNamespace (s : Surface) (value : ClassDef) :
    (s.readClass w
        { value with implemented := before ++ .byNamespace outer name args :: after }).shape =
      (s.readClass w { value with implemented := before ++ after }).shape := by
  rw [shape_readClass, shape_readClass w s value (before ++ after)]
  simp only [List.map_append, List.map_cons, List.foldl_append, List.foldl_cons]
  rfl

end Clauses

/-- **Parents by namespace**: with a clause `ns.T` in the place of `T`, the shape of an interface
    and the input shape of a class have the same names exactly if every name of a member of `T` is
    brought in without that clause. -/
theorem namespace_clauses_keep_names_iff (w : Workspace) (e : Expander) (scope : Scope)
    (decl : InterfaceDecl) (s : Surface) (value : ClassDef) (before after : List Heritage)
    (outer name : String) (args : List TypeUse) :
    (SameNames
        (interfaceMembers w e scope
          { decl with parents := before ++ .byNamespace outer name args :: after })
        (interfaceMembers w e scope
          { decl with parents := before ++ .byName name args :: after }) ↔
      ∀ n ∈ memberNames (namedMembers w e scope name (args.map (·.type))),
        n ∈ memberNames (interfaceMembers w e scope { decl with parents := before ++ after })) ∧
    (SameNames
        (s.readClass w
          { value with implemented := before ++ .byNamespace outer name args :: after }).shape
        (s.readClass w
          { value with implemented := before ++ .byName name args :: after }).shape ↔
      ∀ n ∈ memberNames (w.namedMembersIn (.ofFile s.file) name (args.map (·.type))),
        n ∈ memberNames (s.readClass w { value with implemented := before ++ after }).shape) := by
  constructor
  · rw [interfaceMembers_byNamespace]
    simp only [interfaceMembers_eq, List.map_append, List.map_cons, List.append_assoc,
      List.cons_append]
    exact sameNames_foldl_insert_iff
  · rw [shape_readClass_byNamespace, shape_readClass w s value (before ++ after),
      shape_readClass w s value (before ++ .byName name args :: after)]
    simp only [List.map_append, List.map_cons]
    exact sameNames_foldl_insert_iff

end Types

end ElementCatalog
