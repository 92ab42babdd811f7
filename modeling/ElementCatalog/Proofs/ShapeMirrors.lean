import ElementCatalog.Proofs.ExpansionPaths
import ElementCatalog.Proofs.MergedShapes
import ElementCatalog.Proofs.ObjectProperties
import ElementCatalog.Types.ShapeTypes

/-!
# Objects that mirror shapes

Toward: what the two readings of a type do side by side keeps object and shape alike.  The route:

* `Mirrors` says that an object has a property exactly for every member of a shape that is no
  method, with the schema of the member, required unless it is optional;
* it is kept by merging, if no name stands for a property and for a method, and by the changes of
  well-known names;
* it holds of the own members of an object type and of the fields of a class, where no declaration
  that they lead to is open.
-/

namespace ElementCatalog

open Source (TypeExpr TypeMember)
open ElementCatalog.Types

/-! ## Uses of names -/

namespace NameUse

/-- Every member of the shape is one of the uses. -/
def Cover (uses : List NameUse) (shape : List ShapeMember) : Prop :=
  ∀ m ∈ shape, m.use ∈ uses

variable {uses uses' : List NameUse} {shape members : List ShapeMember}

/-- A shape without members uses no names. -/
theorem Cover.nil (uses : List NameUse) : Cover uses [] :=
  fun _ h => absurd h List.not_mem_nil

/-- More uses cover as much. -/
theorem Cover.mono (h : Cover uses shape) (hsubset : uses ⊆ uses') : Cover uses' shape :=
  fun m hm => hsubset (h m hm)

/-- Uses that cover two shapes cover one over the other. -/
theorem Cover.merge (h : Cover uses shape) (hmembers : Cover uses members) :
    Cover uses (mergeMembers shape members) := by
  induction members generalizing shape with
  | nil => exact h
  | cons first rest ih =>
      refine ih (fun m hm => ?_) fun m hm => hmembers m (List.mem_cons_of_mem _ hm)
      rcases mem_addMember_iff.mp hm with rfl | ⟨hm, -⟩
      · exact hmembers m List.mem_cons_self
      · exact h m hm

/-- Members of one name in two shapes with consistent uses are both methods, or none is. -/
theorem Consistent.isMethod_eq (hconsistent : Consistent uses) (h : Cover uses shape)
    (hmembers : Cover uses members) : ∀ m ∈ shape, ∀ other ∈ members, m.name = other.name →
      m.isMethod = other.isMethod :=
  fun m hm other hother hname =>
    hconsistent _ (h m hm) _ (hmembers other hother) hname

end NameUse

/-! ## An object and a shape -/

/-- The object has a property exactly for every member of the shape that is no method, with the
    schema of the member, and requires it exactly if the member is not optional. -/
structure Mirrors (w : Workspace) (object : ObjectSchema) (shape : List ShapeMember) : Prop where
  names : object.NamesConsistent
  once : (shape.map (·.name)).Nodup
  property_iff : ∀ n schema required, object.property? n = some (schema, required) ↔
    ∃ m ∈ shape, m.isMethod = false ∧ m.name = n ∧ w.memberSchema m = schema ∧
      (!m.optional) = required

namespace Mirrors

variable {w : Workspace} {object other : ObjectSchema} {shape members : List ShapeMember}

/-- No properties and no members. -/
theorem empty (w : Workspace) : Mirrors w .empty [] :=
  ⟨.empty, List.nodup_nil, fun n _ _ => by simp [ObjectSchema.property?_empty]⟩

/-- The object says something of the name of a member that is no method. -/
theorem isSome_property? (h : Mirrors w object shape) {m : ShapeMember} (hm : m ∈ shape)
    (hproperty : m.isMethod = false) : (object.property? m.name).isSome :=
  Option.isSome_iff_exists.mpr
    ⟨_, (h.property_iff m.name _ _).mpr ⟨m, hm, hproperty, rfl, rfl, rfl⟩⟩

/-- One object and shape over another one, if no name is a property here and a method there. -/
theorem merge (h : Mirrors w object shape) (hother : Mirrors w other members)
    (hconsistent : ∀ m ∈ shape, ∀ m' ∈ members, m.name = m'.name → m.isMethod = m'.isMethod) :
    Mirrors w (object.merge other) (mergeMembers shape members) := by
  refine ⟨h.names.merge other, nodup_names_mergeMembers members h.once, fun n schema required => ?_⟩
  rw [ObjectSchema.property?_merge object hother.names.properties, Option.or_eq_some_iff,
    hother.property_iff, h.property_iff]
  constructor
  · rintro (⟨m, hm, htold⟩ | ⟨hfree, m, hm, hproperty, hname, htold⟩)
    · exact ⟨m, (mem_mergeMembers_iff hother.once).mpr (Or.inl hm), htold⟩
    · refine ⟨m, (mem_mergeMembers_iff hother.once).mpr (Or.inr ⟨hm, fun m' hm' heq => ?_⟩),
        hproperty, hname, htold⟩
      -- A member of that name would be no method either, and the object would say something of it.
      have hsome := hother.isSome_property? hm'
        ((hconsistent m hm m' hm' heq).symm.trans hproperty)
      rw [← heq, hname, hfree] at hsome
      cases hsome
  · rintro ⟨m, hm, hproperty, hname, htold⟩
    rcases (mem_mergeMembers_iff hother.once).mp hm with hm | ⟨hm, hfree⟩
    · exact Or.inl ⟨m, hm, hproperty, hname, htold⟩
    · refine Or.inr ⟨?_, m, hm, hproperty, hname, htold⟩
      cases hfound : other.property? n with
      | none => rfl
      | some said =>
          obtain ⟨m', hm', -, hname', -⟩ := (hother.property_iff n said.1 said.2).mp hfound
          exact absurd (hname.trans hname'.symm) (hfree m' hm')

/-- Making all members optional, or none, and requiring nothing, or everything. -/
theorem setOptional (h : Mirrors w object shape) {required : List String} {optional : Bool}
    (hnames : ObjectSchema.NamesConsistent { object with required := required })
    (htold : ∀ n, ObjectSchema.property? { object with required := required } n =
      (object.property? n).map fun said => (said.1, !optional)) :
    Mirrors w { object with required := required }
      (shape.map fun m => { m with optional := optional }) := by
  refine ⟨hnames, ?_, fun n schema required => ?_⟩
  · rw [List.map_map]
    exact h.once
  · rw [htold, Option.map_eq_some_iff]
    constructor
    · rintro ⟨said, hsaid, heq⟩
      cases heq
      obtain ⟨m, hm, hproperty, hname, hschema, -⟩ := (h.property_iff n said.1 said.2).mp hsaid
      exact ⟨_, List.mem_map.mpr ⟨m, hm, rfl⟩, hproperty, hname, hschema, rfl⟩
    · rintro ⟨changed, hchanged, hproperty, hname, hschema, hrequired⟩
      obtain ⟨m, hm, rfl⟩ := List.mem_map.mp hchanged
      exact ⟨(schema, !m.optional),
        (h.property_iff n _ _).mpr ⟨m, hm, hproperty, hname, hschema, rfl⟩, by rw [← hrequired]⟩

/-- Keeping what satisfies a test on names. -/
theorem restrict (h : Mirrors w object shape) (keep : String → Bool) :
    Mirrors w (object.restrict keep) (shape.filter fun m => keep m.name) := by
  refine ⟨.restrict object keep, h.once.sublist (List.filter_sublist.map _),
    fun n schema required => ?_⟩
  rw [ObjectSchema.property?_restrict h.names.properties]
  constructor
  · intro htold
    cases hkeep : keep n with
    | false =>
        rw [hkeep] at htold
        cases htold
    | true =>
        rw [hkeep] at htold
        obtain ⟨m, hm, hproperty, hname, hschema⟩ := (h.property_iff n schema required).mp htold
        exact ⟨m, List.mem_filter.mpr ⟨hm, by rw [hname, hkeep]⟩, hproperty, hname, hschema⟩
  · rintro ⟨m, hm, hproperty, hname, hschema⟩
    obtain ⟨hm, hkeep⟩ := List.mem_filter.mp hm
    rw [← hname, hkeep, if_pos rfl, hname]
    exact (h.property_iff n schema required).mpr ⟨m, hm, hproperty, hname, hschema⟩

end Mirrors

/-- The property that a member declares, if it is no method. -/
def Workspace.memberEntry (w : Workspace) (m : ShapeMember) : PropertyEntry :=
  ⟨m.name, w.memberSchema m, !m.optional⟩

/-- The object that is written from the members of a shape that are no methods mirrors the shape. -/
theorem Mirrors.of_entries {w : Workspace} {shape : List ShapeMember}
    (hnodup : (shape.map (·.name)).Nodup) : Mirrors w
      (.insertAll .empty ((shape.filter fun m => !m.isMethod).map w.memberEntry)) shape := by
  have hentries : (((shape.filter fun m => !m.isMethod).map w.memberEntry).map (·.name)).Nodup := by
    rw [List.map_map]
    exact hnodup.sublist (List.filter_sublist.map _)
  refine ⟨ObjectSchema.NamesConsistent.empty.insertAll _, hnodup, fun n schema required => ?_⟩
  rw [ObjectSchema.property?_insertAll, ObjectSchema.property?_empty, Option.or_none,
    Option.map_eq_some_iff]
  constructor
  · rintro ⟨e, he, heq⟩
    obtain ⟨hmem, hname⟩ := (ObjectSchema.lastWrite?_eq_some_iff hentries).mp he
    obtain ⟨m, hm, rfl⟩ := List.mem_map.mp hmem
    obtain ⟨hm, hproperty⟩ := List.mem_filter.mp hm
    cases heq
    exact ⟨m, hm, by simpa using hproperty, hname, rfl, rfl⟩
  · rintro ⟨m, hm, hproperty, hname, hschema, hrequired⟩
    refine ⟨w.memberEntry m, (ObjectSchema.lastWrite?_eq_some_iff hentries).mpr ⟨?_, hname⟩, ?_⟩
    · exact List.mem_map.mpr ⟨m, List.mem_filter.mpr ⟨hm, by rw [hproperty]; rfl⟩, rfl⟩
    · rw [← hschema, ← hrequired]
      rfl

/-! ## Bodies -/

section Bodies

variable {w : Workspace} {e : Expander} {scope : Scope} {params : List String}
  {opened : List DeclarationKey}

/-- The schema of a member is that of its declared type. -/
theorem Workspace.memberSchema_eq (w : Workspace) (m : ShapeMember) :
    w.memberSchema m = declaredSchema w w.expander.schema m.scope m.type := by
  rw [memberSchema]
  cases m.type with
  | none => rfl
  | some type =>
      rw [declaredSchema]
      rfl

/-- The members of an object type use the names that it uses. -/
theorem map_use_ownMembers (members : List TypeMember) :
    (ownMembers w e scope members).map ShapeMember.use = NameUse.ofMembers members := by
  rw [ownMembers, List.map_filterMap, NameUse.ofMembers]
  refine List.filterMap_congr fun member _ => ?_
  cases member with
  | property start key optional type =>
      rw [ownMember?, NameUse.ofMember?, Option.map_map]
      cases type with
      | none => rfl
      | some type => rfl
  | method start key optional parameter =>
      rw [ownMember?, NameUse.ofMember?, Option.map_map]
      rfl
  | getter start key type =>
      rw [ownMember?, NameUse.ofMember?, Option.map_map]
      congr 1
      funext name
      cases type with
      | none => rfl
      | some type => rfl
  | other => rfl

/-- The fields of a class use the names that it uses. -/
theorem map_use_classMembers (value : Source.ClassDef) :
    (classMembers w e scope value).map ShapeMember.use = NameUse.ofFields value := by
  rw [classMembers, List.map_map, NameUse.ofFields]
  refine List.map_congr_left fun field _ => ?_
  obtain ⟨name, type, optional, start⟩ := field
  cases type with
  | none => rfl
  | some type => rfl

/-- Where no name is used twice, the names of the members stand apart. -/
theorem nodup_names_of_once {shape : List ShapeMember}
    (h : NameUse.Once (shape.map ShapeMember.use)) : (shape.map (·.name)).Nodup := by
  rw [NameUse.Once, List.map_map] at h
  exact h

/-- A shape is covered by the uses of its members. -/
theorem NameUse.Cover.of_map {shape : List ShapeMember} {uses : List NameUse}
    (h : shape.map ShapeMember.use = uses) : NameUse.Cover uses shape := by
  intro m hm
  rw [← h]
  exact List.mem_map.mpr ⟨m, hm, rfl⟩

/-- A member of an object type declares a property exactly if it is no method. -/
theorem entryOf_eq_of_clear (hbinds : scope.Binds params) {member : TypeMember}
    (h : w.Clear opened (referencesOfMember w scope.file params member)) :
    entryOf w (expanderWithin w (w.typeCount + 1) opened).schema scope member =
      ((ownMember? w e scope member).filter fun m => !m.isMethod).map w.memberEntry := by
  cases member with
  | property start key optional type =>
      rw [referencesOfMember] at h
      rw [entryOf, ownMember?, Workspace.declaredSchema_of_clear hbinds h]
      cases key.name? with
      | none => rfl
      | some name =>
          cases type with
          | none => rfl
          | some type =>
              rw [declaredSchema]
              rfl
  | method start key optional parameter =>
      rw [ownMember?]
      cases key.name? with
      | none => rfl
      | some name => rfl
  | getter start key type =>
      rw [referencesOfMember] at h
      rw [entryOf, ownMember?, Workspace.declaredSchema_of_clear hbinds h]
      cases key.name? with
      | none => rfl
      | some name =>
          cases type with
          | none => rfl
          | some type =>
              rw [declaredSchema]
              rfl
  | other => rfl

/-- The properties that an object type declares are its members that are no methods. -/
theorem entriesOf_eq_of_clear (hbinds : scope.Binds params) : ∀ {members : List TypeMember},
    w.Clear opened (referencesOfMembers w scope.file params members) →
      entriesOf w (expanderWithin w (w.typeCount + 1) opened).schema scope members =
        ((ownMembers w e scope members).filter fun m => !m.isMethod).map w.memberEntry := by
  intro members
  induction members with
  | nil => exact fun _ => rfl
  | cons member rest ih =>
      intro h
      rw [referencesOfMembers] at h
      rw [entriesOf, ih (h.mono (List.subset_append_right _ _)),
        entryOf_eq_of_clear (e := e) hbinds (h.mono (List.subset_append_left _ _)), ownMembers,
        ownMembers, List.filterMap_cons]
      cases ownMember? w e scope member with
      | none => rfl
      | some m =>
          cases hmethod : m.isMethod with
          | true => simp [hmethod]
          | false => simp [hmethod, Option.filter_some]

/-- An object type mirrors its own members if it uses no name twice. -/
theorem Mirrors.own (hbinds : scope.Binds params) {members : List TypeMember}
    (h : w.Clear opened (referencesOfMembers w scope.file params members))
    (honce : NameUse.Once (NameUse.ofMembers members)) :
    Mirrors w (.insertAll .empty
        (entriesOf w (expanderWithin w (w.typeCount + 1) opened).schema scope members))
      (ownMembers w e scope members) := by
  rw [entriesOf_eq_of_clear (e := e) hbinds h]
  exact .of_entries (nodup_names_of_once (by rw [map_use_ownMembers]; exact honce))

/-- The schema of the instances of a class mirrors their members if no two fields have one name. -/
theorem Mirrors.fields (hbinds : scope.Binds params) {value : Source.ClassDef}
    (h : w.Clear opened ((classFields value).flatMap fun field =>
      referencesOfDeclared w scope.file params field.type))
    (honce : NameUse.Once (NameUse.ofFields value)) :
    ∃ object, classSchema w (expanderWithin w (w.typeCount + 1) opened).schema scope value =
      .object object ∧ Mirrors w object (classMembers w e scope value) := by
  refine ⟨_, rfl, ?_⟩
  have hproperties : (classMembers w e scope value).filter (fun m => !m.isMethod) =
      classMembers w e scope value := by
    refine List.filter_eq_self.mpr fun m hm => ?_
    have huse : m.use ∈ (classMembers w e scope value).map ShapeMember.use :=
      List.mem_map.mpr ⟨m, hm, rfl⟩
    rw [map_use_classMembers, NameUse.ofFields] at huse
    obtain ⟨field, -, heq⟩ := List.mem_map.mp huse
    have hmethod : m.isMethod = false := (congrArg NameUse.isMethod heq).symm
    rw [hmethod]
    rfl
  have hentries : ((classFields value).map fun field => (⟨field.name,
      declaredSchema w (expanderWithin w (w.typeCount + 1) opened).schema scope field.type,
        !field.optional⟩ : PropertyEntry)) =
      ((classMembers w e scope value).filter fun m => !m.isMethod).map w.memberEntry := by
    rw [hproperties, classMembers, List.map_map]
    refine List.map_congr_left fun field hfield => ?_
    have hclear : w.Clear opened (referencesOfDeclared w scope.file params field.type) :=
      h.mono fun d hd => List.mem_flatMap.mpr ⟨field, hfield, hd⟩
    rw [Workspace.declaredSchema_of_clear hbinds hclear]
    show _ = PropertyEntry.mk _ (w.memberSchema _) _
    rw [Workspace.memberSchema_eq]
  rw [hentries]
  exact .of_entries (nodup_names_of_once (by rw [map_use_classMembers]; exact honce))

end Bodies

end ElementCatalog
