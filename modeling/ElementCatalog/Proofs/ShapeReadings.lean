import ElementCatalog.Proofs.SchemaSoundness
import ElementCatalog.Proofs.ShapeMirrors

/-!
# The two readings of a shape type agree

Toward: a shape type is read to an object whose properties are exactly the members of its shape that
are no methods, each required exactly if the member is not optional, with the schema that the
declared type of the member has in the scope of the member.  The route:

* a well-known name that changes shapes changes objects in the same way, and any other name is read
  by looking into its declaration;
* by induction on the shape type, on every path from which no open declaration can be reached; a
  declaration that is not recursive is looked into on such a path again.
-/

namespace ElementCatalog

open Source (TypeExpr TypeMember Heritage)
open ElementCatalog.Types

/-! ## Names -/

section Names

variable {w : Workspace} {scope : Scope} {name : String}

/-- What a change of a shape is for schemas. -/
def Types.ShapeChange.rule : ShapeChange → WellKnown
  | .setOptional true => .withNothingRequired
  | .setOptional false => .withAllRequired
  | .keep => .first
  | .pick => .pick
  | .omit => .omit

/-- What a change of a shape is for objects. -/
def Types.ShapeChange.applyTo (keys : List String) (object : ObjectSchema) :
    ShapeChange → ObjectSchema
  | .setOptional true => { object with required := [] }
  | .setOptional false => { object with required := Dictionary.names object.properties }
  | .keep => object
  | .pick => object.restrict keys.contains
  | .omit => object.restrict fun name => !keys.contains name

/-- The names that change shapes are well known, with the rules of these changes. -/
theorem wellKnown?_of_shapeChange? {change : ShapeChange} (h : shapeChange? name = some change) :
    wellKnown? name = some change.rule := by
  rw [shapeChange?] at h
  split_ifs at h with hpartial hrequired hreadonly hpick homit
  · cases h
    rw [hpartial]
    rfl
  · cases h
    rw [hrequired]
    rfl
  · cases h
    rw [hreadonly]
    rfl
  · cases h
    rw [hpick]
    rfl
  · cases h
    rw [homit]
    rfl

/-- A name that is not well known changes no shape. -/
theorem shapeChange?_of_plain (h : wellKnown? name = none) : shapeChange? name = none := by
  cases hchange : shapeChange? name with
  | none => rfl
  | some change =>
      rw [wellKnown?_of_shapeChange? hchange] at h
      cases h

/-- A rule that changes shapes changes objects. -/
theorem Types.ShapeChange.rule_apply (change : ShapeChange) (object : ObjectSchema)
    (keys : List String) :
    change.rule.apply (.object object) keys = .object (change.applyTo keys object) := by
  cases change with
  | setOptional optional => cases optional <;> rfl
  | _ => rfl

/-- A change keeps object and shape alike. -/
theorem Mirrors.change {object : ObjectSchema} {shape : List ShapeMember}
    (h : Mirrors w object shape) (keys : List String) (change : ShapeChange) :
    Mirrors w (change.applyTo keys object) (change.apply keys shape) := by
  cases change with
  | setOptional optional =>
      cases optional with
      | true =>
          exact h.setOptional ⟨h.names.properties, List.nodup_nil, fun _ hn => nomatch hn⟩
            object.property?_withNothingRequired
      | false =>
          exact h.setOptional ⟨h.names.properties, h.names.properties, fun _ hn => hn⟩
            object.property?_withAllRequired
  | keep => exact h
  | pick => exact h.restrict keys.contains
  | _ => exact h.restrict fun name => !keys.contains name

/-- A change keeps the uses of the names that it keeps. -/
theorem NameUse.Cover.change {uses : List NameUse} {shape : List ShapeMember}
    (h : NameUse.Cover uses shape) (keys : List String) (change : ShapeChange) :
    NameUse.Cover (uses.filter fun u => change.keeps keys u.name) (change.apply keys shape) := by
  cases change with
  | setOptional optional =>
      intro m hm
      obtain ⟨old, hold, rfl⟩ := List.mem_map.mp hm
      exact List.mem_filter.mpr ⟨h old hold, rfl⟩
  | keep => exact fun m hm => List.mem_filter.mpr ⟨h m hm, rfl⟩
  | _ =>
      intro m hm
      obtain ⟨hm, hkeep⟩ := List.mem_filter.mp hm
      exact List.mem_filter.mpr ⟨h m hm, hkeep⟩

/-- A name that is not bound in a scope that binds the parameters. -/
theorem Scope.Binds.find?_none {params : List String} (h : scope.Binds params)
    (hparam : name ∉ params) : Dictionary.find? scope.bindings name = none := by
  rw [← Option.not_isSome_iff_eq_none, h name]
  exact hparam

/-- A name that is no parameter refers to its declaration and to what its arguments refer to. -/
theorem referencesOf_named {file : SourceFile} {params : List String} (hparam : name ∉ params)
    (args : List TypeExpr) : referencesOf w file params (.reference (.ident name) args) =
      (w.type? file name).toList ++ referencesOfAll w file params args := by
  rw [referencesOf, if_neg fun hcontains => hparam (List.contains_iff_mem.mp hcontains)]

/-- What one of several types refers to, they refer to. -/
theorem subset_referencesOfAll {file : SourceFile} {params : List String} {type : TypeExpr}
    {types : List TypeExpr} (htype : type ∈ types) :
    referencesOf w file params type ⊆ referencesOfAll w file params types := by
  induction types with
  | nil => exact absurd htype List.not_mem_nil
  | cons first rest ih =>
      rw [referencesOfAll]
      rcases List.mem_cons.mp htype with rfl | hrest
      · exact List.subset_append_left _ _
      · exact List.subset_append_of_subset_right _ (ih hrest)

/-- A name that is not well known has the members of its declaration. -/
theorem namedMembers_plain {e : Expander} (hplain : wellKnown? name = none)
    (args : List TypeExpr) : namedMembers w e scope name args =
      declaredMembers w e scope args (w.type? scope.file name) := by
  cases args with
  | nil => rw [namedMembers, shapeChange?_of_plain hplain]
  | cons first rest => rw [namedMembers, shapeChange?_of_plain hplain]

end Names

/-! ## Declarations -/

section Declarations

variable {w : Workspace} {e : Expander} {d : Declaration}

/-- The scope of a declaration's own types. -/
def Declaration.ownScope (d : Declaration) (w : Workspace) (expand : Expand)
    (args : List Schema) : Scope :=
  bindParams w expand d.params args (.ofFile d.file)

/-- A declaration reads its types in its own file. -/
theorem Declaration.file_ownScope (d : Declaration) (w : Workspace) (expand : Expand)
    (args : List Schema) : (d.ownScope w expand args).file = d.file :=
  file_bindParams w expand d.params args _

/-- A declaration binds its type parameters. -/
theorem Declaration.ownScope_binds (d : Declaration) (w : Workspace) (expand : Expand)
    (args : List Schema) : (d.ownScope w expand args).Binds d.paramNames :=
  bindParams_binds w expand d.params args (.ofFile d.file)

/-- An interface is read in its own scope. -/
theorem declaration_of_interface {decl : Source.InterfaceDecl}
    (hnode : d.node = .interfaceNode decl) (args : List Schema) :
    declarationSchema w e.schema d args =
        interfaceSchema w e.schema (d.ownScope w e.schema args) decl ∧
      declarationMembers w e d args = interfaceMembers w e (d.ownScope w e.schema args) decl := by
  simp only [declarationSchema, declarationMembers, Declaration.ownScope, Declaration.params,
    hnode, and_self]

/-- An alias is read in its own scope. -/
theorem declaration_of_alias {decl : Source.AliasDecl} (hnode : d.node = .aliasNode decl)
    (args : List Schema) :
    declarationSchema w e.schema d args =
        schemaOf w e.schema (d.ownScope w e.schema args) decl.type.type ∧
      declarationMembers w e d args =
        membersOf w e (d.ownScope w e.schema args) decl.type.type := by
  simp only [declarationSchema, declarationMembers, Declaration.ownScope, Declaration.params,
    hnode, and_self]

/-- A class is read in its own scope. -/
theorem declaration_of_class {value : Source.ClassDef} (hnode : d.node = .classNode value)
    (args : List Schema) :
    declarationSchema w e.schema d args =
        classSchema w e.schema (d.ownScope w e.schema args) value ∧
      declarationMembers w e d args = classMembers w e (d.ownScope w e.schema args) value := by
  simp only [declarationSchema, declarationMembers, Declaration.ownScope, Declaration.params,
    hnode, and_self]

end Declarations

/-! ## Shape types -/

namespace Workspace

variable {w : Workspace} {opened : List DeclarationKey} {scope : Scope}

/-- The expander on a path of open declarations, with room for all declarations. -/
def expanderOn (w : Workspace) (opened : List DeclarationKey) : Expander :=
  expanderWithin w (w.typeCount + 1) opened

/-- On a path a type is read to an object that mirrors the shape that it is read to, and the shape
    is covered by uses of names. -/
structure ReadsAlike (w : Workspace) (opened : List DeclarationKey) (scope : Scope)
    (type : TypeExpr) (uses : List NameUse) : Prop where
  cover : NameUse.Cover uses (membersOf w (w.expanderOn opened) scope type)
  mirrors : ∃ object, schemaOf w (w.expanderOn opened).schema scope type = .object object ∧
    Mirrors w object (membersOf w (w.expanderOn opened) scope type)

/-- More uses cover as much. -/
theorem ReadsAlike.mono {type : TypeExpr} {uses uses' : List NameUse}
    (h : w.ReadsAlike opened scope type uses) (hsubset : uses ⊆ uses') :
    w.ReadsAlike opened scope type uses' :=
  ⟨h.cover.mono hsubset, h.mirrors⟩

/-- A type that is read to a schema and a shape that mirror each other. -/
theorem ReadsAlike.of_eq {type : TypeExpr} {uses : List NameUse} {schema : Schema}
    {shape : List ShapeMember}
    (hschema : schemaOf w (w.expanderOn opened).schema scope type = schema)
    (hmembers : membersOf w (w.expanderOn opened) scope type = shape)
    (hcover : NameUse.Cover uses shape)
    (hmirrors : ∃ object, schema = .object object ∧ Mirrors w object shape) :
    w.ReadsAlike opened scope type uses := by
  subst hschema hmembers
  exact ⟨hcover, hmirrors⟩

/-- Members of an intersection that are read alike are merged alike. -/
theorem mergedSchema_mirrors {total : List NameUse} (hconsistent : NameUse.Consistent total) :
    ∀ {types : List TypeExpr}, (∀ type ∈ types, w.ReadsAlike opened scope type total) →
      ∀ {object : ObjectSchema} {shape : List ShapeMember}, Mirrors w object shape →
        NameUse.Cover total shape →
          NameUse.Cover total (mergedMembersOf w (w.expanderOn opened) scope shape types) ∧
            ∃ merged, Resolver.mergedSchema object
              (schemasOf w (w.expanderOn opened).schema scope types) = .object merged ∧
              Mirrors w merged (mergedMembersOf w (w.expanderOn opened) scope shape types) := by
  intro types
  induction types with
  | nil => exact fun _ object _ hmirrors hcover => ⟨hcover, object, rfl, hmirrors⟩
  | cons type rest ih =>
      intro htypes object shape hmirrors hcover
      rw [List.forall_mem_cons] at htypes
      obtain ⟨⟨hcover', first, hfirst, hmirrors'⟩, hrest⟩ := htypes
      rw [schemasOf, hfirst, Resolver.mergedSchema_object, mergedMembersOf]
      exact ih hrest (hmirrors.merge hmirrors' (hconsistent.isMethod_eq hcover hcover'))
        (hcover.merge hcover')

/-- Parents that are read alike are inherited alike. -/
theorem inherited_mirrors {total : List NameUse} (hconsistent : NameUse.Consistent total) :
    ∀ {parents : List Heritage}, (∀ parent ∈ parents, ∃ base, parent.name? = some (.ident base) ∧
      w.ReadsAlike opened scope (.reference (.ident base) (parent.args.map (·.type))) total) →
      ∀ {object : ObjectSchema} {shape : List ShapeMember}, Mirrors w object shape →
        NameUse.Cover total shape →
          let inherited := (parents.map (clauseMembers w (w.expanderOn opened) scope)).foldl
            mergeMembers shape
          NameUse.Cover total inherited ∧
            Mirrors w ((parents.filterMap fun parent => parent.name?.bind fun name =>
              object? (schemaOf w (w.expanderOn opened).schema scope
                (.reference name (parent.args.map (·.type))))).foldl ObjectSchema.merge object)
              inherited := by
  intro parents
  induction parents with
  | nil => exact fun _ _ _ hmirrors hcover => ⟨hcover, hmirrors⟩
  | cons parent rest ih =>
      intro hparents object shape hmirrors hcover
      rw [List.forall_mem_cons] at hparents
      obtain ⟨⟨base, hname, hcover', first, hfirst, hmirrors'⟩, hrest⟩ := hparents
      rw [membersOf] at hcover' hmirrors'
      rw [List.map_cons, List.foldl_cons, List.filterMap_cons, clauseMembers, hname]
      dsimp only [Option.bind_some]
      rw [hfirst]
      exact ih hrest (hmirrors.merge hmirrors' (hconsistent.isMethod_eq hcover hcover'))
        (hcover.merge hcover')

/-- A well-known name that changes shapes changes what its first argument is read to. -/
theorem reading_of_changed (w : Workspace) (opened : List DeclarationKey) (scope : Scope)
    {name : String} {change : ShapeChange} (hchange : shapeChange? name = some change)
    (first : TypeExpr) (rest : List TypeExpr) :
    (∀ object, Dictionary.find? scope.bindings name = none →
      schemaOf w (w.expanderOn opened).schema scope first = .object object →
        schemaOf w (w.expanderOn opened).schema scope (.reference (.ident name) (first :: rest)) =
          .object (change.applyTo (keysArgument (first :: rest)) object)) ∧
      membersOf w (w.expanderOn opened) scope (.reference (.ident name) (first :: rest)) =
        change.apply (keysArgument (first :: rest))
          (membersOf w (w.expanderOn opened) scope first) := by
  refine ⟨fun object hbound hobject => ?_, by rw [membersOf, namedMembers, hchange]⟩
  rw [schemaOf, hbound, wellKnown?_of_shapeChange? hchange]
  dsimp only
  rw [firstSchema, hobject, change.rule_apply]

/-- A name of a declaration that is not open is read by looking into the declaration, if no open
    declaration can be reached from the name. -/
theorem reading_of_named {params : List String} {name : String} {d : Declaration}
    {args : List TypeExpr} (hbinds : scope.Binds params) (hparam : name ∉ params)
    (hplain : wellKnown? name = none) (hd : w.type? scope.file name = some d)
    (hclear : w.Clear opened (referencesOf w scope.file params (.reference (.ident name) args))) :
    let schemas := schemasOf w (w.expanderOn opened).schema scope args
    schemaOf w (w.expanderOn opened).schema scope (.reference (.ident name) args) =
        declarationSchema w (w.expanderOn (d.key :: opened)).schema d schemas ∧
      membersOf w (w.expanderOn opened) scope (.reference (.ident name) args) =
        declarationMembers w (w.expanderOn (d.key :: opened)) d schemas := by
  intro schemas
  have hdeclared : w.Declares .type d := resolve?_declares hd
  have hmem : d ∈ referencesOf w scope.file params (.reference (.ident name) args) := by
    rw [referencesOf_named hparam, hd]
    exact List.mem_cons_self
  have hclosed : ¬opened.contains d.key = true := fun hopen =>
    hclear d hmem d .refl (List.contains_iff_mem.mp hopen)
  obtain ⟨hschema, hmembers, -⟩ := expander_hands_down_path hdeclared opened
  constructor
  · rw [schemaOf_named (hbinds.find?_none hparam) hplain hd]
    exact (hschema schemas).trans (if_neg hclosed)
  · rw [membersOf, namedMembers_plain hplain, hd]
    exact (hmembers schemas).trans (if_neg hclosed)

/-- No open declaration can be reached from inside a declaration that a name refers to, if it is not
    recursive. -/
theorem Clear.of_named {params : List String} {name : String} {d : Declaration}
    {args : List TypeExpr} (hparam : name ∉ params) (hd : w.type? scope.file name = some d)
    (hrecursive : ¬w.Recursive d)
    (hclear : w.Clear opened (referencesOf w scope.file params (.reference (.ident name) args))) :
    w.Clear (d.key :: opened) (d.partReferences w) := by
  have hmem : d ∈ referencesOf w scope.file params (.reference (.ident name) args) := by
    rw [referencesOf_named hparam, hd]
    exact List.mem_cons_self
  exact (hclear.inside hmem hrecursive).mono (List.subset_append_right _ _)

/-- An interface whose parents are read alike is read alike. -/
theorem interface_mirrors {decl : Source.InterfaceDecl} {params : List String}
    {inherited : List NameUse} (hbinds : scope.Binds params)
    (hparents : ∀ parent ∈ decl.parents, ∃ base, parent.name? = some (.ident base) ∧
      w.ReadsAlike opened scope (.reference (.ident base) (parent.args.map (·.type))) inherited)
    (hclear : w.Clear opened (referencesOfMembers w scope.file params decl.members))
    (honce : NameUse.Once (NameUse.ofMembers decl.members))
    (hconsistent : NameUse.Consistent (inherited ++ NameUse.ofMembers decl.members)) :
    NameUse.Cover (inherited ++ NameUse.ofMembers decl.members)
        (interfaceMembers w (w.expanderOn opened) scope decl) ∧
      ∃ object, interfaceSchema w (w.expanderOn opened).schema scope decl = .object object ∧
        Mirrors w object (interfaceMembers w (w.expanderOn opened) scope decl) := by
  have hall : ∀ parent ∈ decl.parents, ∃ base, parent.name? = some (.ident base) ∧
      w.ReadsAlike opened scope (.reference (.ident base) (parent.args.map (·.type)))
        (inherited ++ NameUse.ofMembers decl.members) := by
    intro parent hparent
    obtain ⟨base, hbase, hreads⟩ := hparents parent hparent
    exact ⟨base, hbase, hreads.mono (List.subset_append_left _ _)⟩
  obtain ⟨hcover, hmirrors⟩ := inherited_mirrors hconsistent hall (.empty w) (.nil _)
  have hownCover : NameUse.Cover (inherited ++ NameUse.ofMembers decl.members)
      (ownMembers w (w.expanderOn opened) scope decl.members) :=
    (NameUse.Cover.of_map (map_use_ownMembers decl.members)).mono (List.subset_append_right _ _)
  have hownMirrors := Mirrors.own (e := w.expanderOn opened) hbinds hclear honce
  exact ⟨hcover.merge hownCover, _, rfl,
    hmirrors.merge hownMirrors (hconsistent.isMethod_eq hcover hownCover)⟩

end Workspace

/-- A shape type is read alike on every path from which no open declaration can be reached. The path
    is free in the induction, because a declaration is looked into on a longer one. -/
theorem ShapeType.readsAlike {w : Workspace} {file : SourceFile} {params : List String}
    {type : TypeExpr} {uses : List NameUse} (h : ShapeType w file params type uses) :
    ∀ (opened : List DeclarationKey) (scope : Scope), scope.file = file → scope.Binds params →
      w.Clear opened (referencesOf w file params type) →
        w.ReadsAlike opened scope type uses := by
  induction h with
  | @object _ _ members honce =>
      intro opened scope hfile hbinds hclear
      subst hfile
      rw [referencesOf] at hclear
      exact .of_eq (by rw [schemaOf]; rfl) (by rw [membersOf])
        (.of_map (map_use_ownMembers members))
        ⟨_, rfl, .own hbinds hclear honce⟩
  | paren _ ih | readonly _ ih =>
      intro opened scope hfile hbinds hclear
      rw [referencesOf] at hclear
      obtain ⟨hcover, hmirrors⟩ := ih opened scope hfile hbinds hclear
      exact .of_eq (by rw [schemaOf]) (by rw [membersOf]) hcover hmirrors
  | @intersection _ _ members used _ hconsistent ih =>
      intro opened scope hfile hbinds hclear
      rw [referencesOf] at hclear
      have hmembers : ∀ member ∈ members,
          w.ReadsAlike opened scope member (members.flatMap used) := by
        intro member hmember
        refine (ih member hmember opened scope hfile hbinds (hclear.mono ?_)).mono
          fun u hu => List.mem_flatMap.mpr ⟨member, hmember, hu⟩
        exact subset_referencesOfAll hmember
      obtain ⟨hcover, hmirrors⟩ := Workspace.mergedSchema_mirrors hconsistent hmembers
        (.empty w) (.nil _)
      exact .of_eq (by rw [schemaOf]; rfl) (by rw [membersOf]) hcover hmirrors
  | @changed _ params name change first rest uses hparam hchange _ ih =>
      intro opened scope hfile hbinds hclear
      rw [referencesOf_named hparam, referencesOfAll] at hclear
      obtain ⟨hcover, object, hobject, hmirrors⟩ := ih opened scope hfile hbinds
        (hclear.mono fun d hd => List.mem_append_right _ (List.mem_append_left _ hd))
      obtain ⟨hschema, hmembers⟩ := w.reading_of_changed opened scope hchange first rest
      exact .of_eq (hschema object (hbinds.find?_none hparam) hobject) hmembers
        (hcover.change _ change)
        ⟨change.applyTo (keysArgument (first :: rest)) object, rfl, hmirrors.change _ change⟩
  -- A declaration is looked into on the path that has it open, in a scope of its own.
  | @interfaceReference _ _ name args d decl used hparam hplain hd hnode hrecursive hnames _ honce
      hconsistent ih =>
      intro opened scope hfile hbinds hclear
      subst hfile
      obtain ⟨hschema, hmembers⟩ := Workspace.reading_of_named hbinds hparam hplain hd hclear
      have hinside := Workspace.Clear.of_named hparam hd hrecursive hclear
      simp only [Declaration.partReferences, hnode] at hinside
      rw [(declaration_of_interface hnode _).1] at hschema
      rw [(declaration_of_interface hnode _).2] at hmembers
      have hown := d.file_ownScope w (w.expanderOn (d.key :: opened)).schema
        (schemasOf w (w.expanderOn opened).schema scope args)
      have hparents : ∀ parent ∈ decl.parents, ∃ base, parent.name? = some (.ident base) ∧
          w.ReadsAlike (d.key :: opened) (d.ownScope w (w.expanderOn (d.key :: opened)).schema
            (schemasOf w (w.expanderOn opened).schema scope args))
            (.reference (.ident base) (parent.args.map (·.type))) (decl.parents.flatMap used) := by
        intro parent hparent
        obtain ⟨base, hbase⟩ := hnames parent hparent
        refine ⟨base, hbase, (ih parent hparent base hbase _ _ hown (d.ownScope_binds w _ _)
          (hinside.mono fun target htarget => ?_)).mono fun u hu => ?_⟩
        · refine List.mem_append_left _ (List.mem_flatMap.mpr ⟨parent, hparent, ?_⟩)
          rw [referencesOfParent, hbase]
          exact htarget
        · exact List.mem_flatMap.mpr ⟨parent, hparent, hu⟩
      obtain ⟨hcover, hmirrors⟩ := Workspace.interface_mirrors (d.ownScope_binds w _ _) hparents
        (hinside.mono (by rw [hown]; exact List.subset_append_right _ _)) honce hconsistent
      exact .of_eq hschema hmembers hcover hmirrors
  | @aliasReference _ _ name args d decl uses hparam hplain hd hnode hrecursive _ ih =>
      intro opened scope hfile hbinds hclear
      subst hfile
      obtain ⟨hschema, hmembers⟩ := Workspace.reading_of_named hbinds hparam hplain hd hclear
      have hinside := Workspace.Clear.of_named hparam hd hrecursive hclear
      simp only [Declaration.partReferences, hnode] at hinside
      rw [(declaration_of_alias hnode _).1] at hschema
      rw [(declaration_of_alias hnode _).2] at hmembers
      obtain ⟨hcover, hmirrors⟩ := ih (d.key :: opened) _ (d.file_ownScope w _ _)
        (d.ownScope_binds w _ _) hinside
      exact .of_eq hschema hmembers hcover hmirrors
  | @classReference _ _ name args d value hparam hplain hd hnode hrecursive honce =>
      intro opened scope hfile hbinds hclear
      subst hfile
      obtain ⟨hschema, hmembers⟩ := Workspace.reading_of_named hbinds hparam hplain hd hclear
      have hinside := Workspace.Clear.of_named hparam hd hrecursive hclear
      simp only [Declaration.partReferences, hnode] at hinside
      rw [(declaration_of_class hnode _).1] at hschema
      rw [(declaration_of_class hnode _).2] at hmembers
      rw [← d.file_ownScope w (w.expanderOn (d.key :: opened)).schema
        (schemasOf w (w.expanderOn opened).schema scope args)] at hinside
      exact .of_eq hschema hmembers (.of_map (map_use_classMembers value))
        (Mirrors.fields (d.ownScope_binds w _ _) hinside honce)

/-- **The two readings agree**: a shape type whose names are read in a scope is read to an object
    that has a property exactly for every member of its shape that is no method. The property is
    required exactly if the member is not optional, and its schema is that of the member's declared
    type in the member's own scope. -/
theorem Workspace.shape_readings_agree (w : Workspace) (scope : Scope) (type : TypeExpr)
    (uses : List NameUse)
    (h : ShapeType w scope.file (Dictionary.names scope.bindings) type uses) :
    ∃ object, w.schemaIn scope type = .object object ∧ ∀ n,
      ((Dictionary.find? object.properties n).isSome ↔
        ∃ m ∈ w.membersIn scope type, m.isMethod = false ∧ m.name = n) ∧
      ∀ m ∈ w.membersIn scope type, m.isMethod = false → m.name = n →
        (n ∈ object.required ↔ m.optional = false) ∧
          Dictionary.find? object.properties n = some (w.memberSchema m) := by
  have hbinds : scope.Binds (Dictionary.names scope.bindings) :=
    fun _ => Dictionary.isSome_find?_iff
  obtain ⟨-, object, hobject, hmirrors⟩ := h.readsAlike [] scope rfl hbinds (.nil w _)
  refine ⟨object, hobject, fun n => ⟨⟨fun hfound => ?_, ?_⟩, ?_⟩⟩
  · obtain ⟨schema, hschema⟩ := Option.isSome_iff_exists.mp hfound
    have hproperty : object.property? n = some (schema, object.required.contains n) := by
      rw [ObjectSchema.property?, hschema]
      rfl
    obtain ⟨m, hm, hmethod, hname, -⟩ := (hmirrors.property_iff n _ _).mp hproperty
    exact ⟨m, hm, hmethod, hname⟩
  · rintro ⟨m, hm, hmethod, rfl⟩
    have hproperty := hmirrors.isSome_property? hm hmethod
    rw [ObjectSchema.property?, Option.isSome_map] at hproperty
    exact hproperty
  · intro m hm hmethod hname
    have hproperty : object.property? n = some (w.memberSchema m, !m.optional) :=
      (hmirrors.property_iff n _ _).mpr ⟨m, hm, hmethod, hname, rfl, rfl⟩
    obtain ⟨schema, hschema, heq⟩ := Option.map_eq_some_iff.mp hproperty
    obtain ⟨heq, hrequired⟩ := Prod.mk.inj heq
    refine ⟨?_, by rw [hschema, heq]⟩
    rw [← List.contains_iff_mem, hrequired, Bool.not_eq_true']

/-! ## A generic interface that extends another one -/

namespace Workspace

/-- The type of things with an identifier, and a kind if it is known. -/
def baseInterface : Source.InterfaceDecl :=
  { start := ⟨0, 1⟩
    name := "Base"
    params := []
    parents := []
    members :=
      [ .property ⟨20, 1⟩ (.ident "id" false) false (some (.keyword .string)),
        .property ⟨30, 1⟩ (.ident "kind" false) true (some (.keyword .number)) ]
    inner := [] }

/-- The type of inputs: things with a value, a label, and a method that is called with values. -/
def inputInterface : Source.InterfaceDecl :=
  { start := ⟨50, 2⟩
    name := "Input"
    params := [⟨"V", none, []⟩]
    parents := [⟨.ident "Base", []⟩]
    members :=
      [ .property ⟨80, 2⟩ (.ident "value" false) false (some (.reference (.ident "V") [])),
        .property ⟨90, 2⟩ (.ident "label" false) true (some (.keyword .string)),
        .method ⟨105, 2⟩ (.ident "onChange" false) false (some (.reference (.ident "V") [])) ]
    inner := [] }

/-- A module that declares these types. -/
def inputModule : ParsedFile :=
  { path := ⟨[.root, .name "inputs.ts"]⟩
    module := ⟨[.interfaceDecl baseInterface, .interfaceDecl inputInterface], []⟩
    discoverable := true }

/-- The file of that module. -/
def inputFile : SourceFile :=
  Program.placed ⟨[.root]⟩ inputModule 0

/-- The workspace of that file alone. -/
def inputWorkspace : Workspace :=
  .ofProgram (.ofParsed ⟨[.root]⟩ [inputModule]) {}

/-- The declaration of things. -/
def baseDeclaration : Declaration :=
  ⟨"Base", inputFile, .interfaceNode baseInterface, [baseInterface.start], baseInterface.start⟩

/-- The declaration of inputs. -/
def inputDeclaration : Declaration :=
  ⟨"Input", inputFile, .interfaceNode inputInterface, [inputInterface.start], inputInterface.start⟩

/-- The names refer to these declarations. -/
theorem inputs_declared : inputWorkspace.type? inputFile "Base" = some baseDeclaration ∧
    inputWorkspace.type? inputFile "Input" = some inputDeclaration :=
  ⟨type?_placed _ _ _ rfl, type?_placed _ _ _ rfl⟩

/-- Things refer to nothing. -/
theorem references_base : baseDeclaration.references inputWorkspace = [] :=
  rfl

/-- Inputs refer to things. -/
theorem references_input : inputDeclaration.references inputWorkspace = [baseDeclaration] := by
  have hparent : referencesOf inputWorkspace inputFile ["V"] (.reference (.ident "Base") []) =
      [baseDeclaration] := by
    rw [referencesOf_named (by decide), inputs_declared.1]
    rfl
  show referencesOf inputWorkspace inputFile ["V"] (.reference (.ident "Base") []) ++ [] ++ _ = _
  rw [hparent]
  rfl

/-- Neither of them is recursive. -/
theorem inputs_not_recursive :
    ¬inputWorkspace.Recursive baseDeclaration ∧ ¬inputWorkspace.Recursive inputDeclaration := by
  refine ⟨not_recursive_of_references_nil references_base, ?_⟩
  rintro ⟨target, hpath, hkey⟩
  obtain ⟨next, hnext, hrest⟩ := Relation.TransGen.head'_iff.mp hpath
  rw [Refers, references_input, List.mem_singleton] at hnext
  subst hnext
  rcases hrest.cases_head with rfl | ⟨next, hnext, -⟩
  · exact absurd hkey (by decide)
  · rw [Refers, references_base] at hnext
    exact absurd hnext List.not_mem_nil

/-- A scope with a type parameter for texts. -/
def inputScope : Scope :=
  (Scope.ofFile inputFile).bind "T" .string

/-- Inputs of truth values without their label. -/
def unlabeledInput : TypeExpr :=
  .reference (.ident "Omit")
    [.reference (.ident "Input") [.keyword .boolean], .literal (.string ⟨"label", true⟩)]

/-- The members that an input gets in addition. -/
def extraMembers : List TypeMember :=
  [.property ⟨200, 4⟩ (.ident "extra" false) true (some (.reference (.ident "T") []))]

/-- Unlabeled inputs with the additional members. -/
def extendedInput : TypeExpr :=
  .intersection [unlabeledInput, .object extraMembers]

/-- The names that things use. -/
def baseUses : List NameUse :=
  NameUse.ofMembers baseInterface.members

/-- The names that inputs use. -/
def inputUses : List NameUse :=
  (inputInterface.parents.flatMap fun _ => baseUses) ++ NameUse.ofMembers inputInterface.members

/-- The names that the two parts of the type of extended inputs use. -/
def extendedUses : TypeExpr → List NameUse
  | .object members => NameUse.ofMembers members
  | _ => inputUses.filter fun u => ShapeChange.omit.keeps ["label"] u.name

/-- Things are a shape type. -/
theorem base_shapeType (params : List String) (hparam : "Base" ∉ params) :
    ShapeType inputWorkspace inputFile params (.reference (.ident "Base") []) baseUses :=
  @ShapeType.interfaceReference inputWorkspace inputFile params "Base" [] _ _ (fun _ => []) hparam
    rfl inputs_declared.1 rfl inputs_not_recursive.1
    (fun _ h => absurd h List.not_mem_nil) (fun _ h => absurd h List.not_mem_nil)
    (by decide) (by decide)

/-- Inputs are a shape type. -/
theorem input_shapeType (params : List String) (hparam : "Input" ∉ params)
    (args : List TypeExpr) :
    ShapeType inputWorkspace inputFile params (.reference (.ident "Input") args) inputUses := by
  refine @ShapeType.interfaceReference inputWorkspace inputFile params "Input" args _ _
    (fun _ => baseUses) hparam rfl inputs_declared.2 rfl inputs_not_recursive.2 ?_ ?_ (by decide)
    (by decide)
  · intro parent hparent
    rw [List.mem_singleton.mp hparent]
    exact ⟨"Base", rfl⟩
  · intro parent hparent base hbase
    rw [List.mem_singleton.mp hparent] at hbase ⊢
    cases hbase
    exact base_shapeType _ (by decide)

/-- Extended inputs are a shape type, so their two readings agree. -/
theorem extended_input_readings_agree :
    ShapeType inputWorkspace inputScope.file (Dictionary.names inputScope.bindings) extendedInput
      ([unlabeledInput, .object extraMembers].flatMap extendedUses) ∧
    ∃ object, inputWorkspace.schemaIn inputScope extendedInput = .object object ∧ ∀ n,
      ((Dictionary.find? object.properties n).isSome ↔
        ∃ m ∈ inputWorkspace.membersIn inputScope extendedInput,
          m.isMethod = false ∧ m.name = n) ∧
      ∀ m ∈ inputWorkspace.membersIn inputScope extendedInput,
        m.isMethod = false → m.name = n →
          (n ∈ object.required ↔ m.optional = false) ∧
            Dictionary.find? object.properties n = some (inputWorkspace.memberSchema m) := by
  have hshape : ShapeType inputWorkspace inputScope.file (Dictionary.names inputScope.bindings)
      extendedInput ([unlabeledInput, .object extraMembers].flatMap extendedUses) := by
    refine .intersection (fun member hmember => ?_) (by decide)
    rcases List.mem_cons.mp hmember with rfl | hmember
    · exact .changed (by decide) rfl (input_shapeType _ (by decide) _)
    · rw [List.mem_singleton.mp hmember]
      exact .object (by decide)
  exact ⟨hshape, shape_readings_agree inputWorkspace inputScope extendedInput _ hshape⟩

end Workspace

end ElementCatalog
