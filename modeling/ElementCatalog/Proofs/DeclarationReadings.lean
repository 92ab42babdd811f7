import ElementCatalog.Proofs.MergedShapes
import ElementCatalog.Proofs.ShapeReadings

/-!
# References are read like their declarations

A name without a meaning of its own is read by looking into the declaration that it refers to, on
the path that has this declaration open.  Toward: which names the object and the shape of a
declaration have.  The route:

* plain and qualified names refer to declarations alike (`RefersTo`), and both readings look into
  them (`reading_of_reference`);
* writing, merging and restricting objects are followed name by name, so the names of an interface
  are those that its clauses are read to and its own (`mem_names_interfaceSchema`).
-/

namespace ElementCatalog

open Source (TypeExpr TypeMember Heritage EntityName InterfaceDecl ClassDef)
open ElementCatalog.Types

/-! ## References -/

namespace Workspace

variable {w : Workspace} {scope : Scope} {opened : List DeclarationKey}

/-- In a scope a name refers to a declaration, and it has no meaning of its own: a plain one is no
    type parameter and not well known, and a qualified one is no member of an enumeration. -/
inductive RefersTo (w : Workspace) (scope : Scope) : EntityName → Declaration → Prop where
  | plain {name : String} {d : Declaration}
    (hunbound : Dictionary.find? scope.bindings name = none) (hplain : wellKnown? name = none)
    (hd : w.type? scope.file name = some d) : RefersTo w scope (.ident name) d
  | qualified {outer name : String} {d : Declaration}
    (henum : enumMembers? (w.type? scope.file outer) = none)
    (hd : w.qualifiedType? scope.file outer name = some d) :
    RefersTo w scope (.qualified (.ident outer) name) d

/-- What a name refers to is declared. -/
theorem RefersTo.declares {name : EntityName} {d : Declaration} (h : w.RefersTo scope name d) :
    w.Declares .type d := by
  cases h with
  | plain _ _ hd => exact resolve?_declares hd
  | qualified _ hd => exact qualifiedType?_declares hd

/-- A reference is handed to the expander. -/
theorem schemaOf_reference {name : EntityName} {d : Declaration} (h : w.RefersTo scope name d)
    (expand : Expand) (args : List TypeExpr) :
    schemaOf w expand scope (.reference name args) = expand d (schemasOf w expand scope args) := by
  cases h with
  | plain hunbound hplain hd => exact schemaOf_named hunbound hplain hd args
  | qualified henum hd => rw [schemaOf, henum, hd]

/-- A reference has the members of its declaration. -/
theorem membersOf_reference {name : EntityName} {d : Declaration} (h : w.RefersTo scope name d)
    (e : Expander) (args : List TypeExpr) :
    membersOf w e scope (.reference name args) =
      e.members d (schemasOf w e.schema scope args) := by
  cases h with
  | plain _ hplain hd => rw [membersOf, namedMembers_plain hplain, hd, declaredMembers]
  | qualified _ hd => rw [membersOf, hd, declaredMembers]

/-- The scope of a declaration that is looked into on a path: arguments are read outside, and
    defaults inside. -/
def innerScope (w : Workspace) (opened : List DeclarationKey) (d : Declaration)
    (args : List TypeExpr) (scope : Scope) : Scope :=
  d.ownScope w (w.expanderOn (d.key :: opened)).schema
    (schemasOf w (w.expanderOn opened).schema scope args)

/-- A reference to a declaration that is not open is read by looking into the declaration. -/
theorem reading_of_reference {name : EntityName} {d : Declaration} (h : w.RefersTo scope name d)
    (hclosed : d.key ∉ opened) (args : List TypeExpr) :
    let schemas := schemasOf w (w.expanderOn opened).schema scope args
    schemaOf w (w.expanderOn opened).schema scope (.reference name args) =
        declarationSchema w (w.expanderOn (d.key :: opened)).schema d schemas ∧
      membersOf w (w.expanderOn opened) scope (.reference name args) =
        declarationMembers w (w.expanderOn (d.key :: opened)) d schemas := by
  intro schemas
  have hnot : ¬opened.contains d.key = true := fun hopen =>
    hclosed (List.contains_iff_mem.mp hopen)
  obtain ⟨hschema, hmembers, -⟩ := expander_hands_down_path h.declares opened
  constructor
  · rw [schemaOf_reference h]
    exact (hschema schemas).trans (if_neg hnot)
  · rw [membersOf_reference h]
    exact (hmembers schemas).trans (if_neg hnot)

end Workspace

/-! ## Names of objects -/

namespace ObjectSchema

/-- The names of the properties of an object. -/
def propertyNames (object : ObjectSchema) : List String :=
  Dictionary.names object.properties

/-- The object without properties has no names. -/
theorem notMem_propertyNames_empty {n : String} : n ∉ empty.propertyNames :=
  List.not_mem_nil

/-- Writing entries adds their names. -/
theorem mem_propertyNames_insertAll {entries : List PropertyEntry} {n : String} :
    ∀ {object : ObjectSchema}, n ∈ (object.insertAll entries).propertyNames ↔
      n ∈ object.propertyNames ∨ n ∈ entries.map (·.name) := by
  induction entries with
  | nil => exact fun {_} => ⟨Or.inl, fun h => h.resolve_right List.not_mem_nil⟩
  | cons e rest ih =>
      intro object
      have hrest : n ∈ (object.insertAll (e :: rest)).propertyNames ↔
          n ∈ (object.insert e.name e.schema e.required).propertyNames ∨
            n ∈ rest.map (·.name) := ih
      have hfirst : n ∈ (object.insert e.name e.schema e.required).propertyNames ↔
          n = e.name ∨ n ∈ object.propertyNames := Dictionary.mem_names_set
      rw [hrest, hfirst, List.map_cons, List.mem_cons, or_comm (a := n = e.name), or_assoc]

/-- The entries of an object have its names. -/
theorem map_name_entries (object : ObjectSchema) :
    object.entries.map (·.name) = object.propertyNames := by
  rw [entries, List.map_map, propertyNames, Dictionary.names]
  rfl

/-- Merging adds names. -/
theorem mem_propertyNames_merge {object other : ObjectSchema} {n : String} :
    n ∈ (object.merge other).propertyNames ↔
      n ∈ object.propertyNames ∨ n ∈ other.propertyNames := by
  rw [merge_eq_insertAll, mem_propertyNames_insertAll, map_name_entries]

/-- Merging several objects adds the names of all of them. -/
theorem mem_propertyNames_foldl_merge {objects : List ObjectSchema} {n : String} :
    ∀ {object : ObjectSchema}, n ∈ (objects.foldl merge object).propertyNames ↔
      n ∈ object.propertyNames ∨ ∃ other ∈ objects, n ∈ other.propertyNames := by
  induction objects with
  | nil => simp
  | cons first rest ih =>
      intro object
      rw [List.foldl_cons, ih, mem_propertyNames_merge, or_assoc]
      simp only [List.mem_cons, exists_eq_or_imp]

/-- Restricting keeps the names that satisfy the test. -/
theorem mem_propertyNames_restrict {object : ObjectSchema} {keep : String → Bool} {n : String} :
    n ∈ (object.restrict keep).propertyNames ↔ n ∈ object.propertyNames ∧ keep n = true := by
  rw [restrict_eq_insertAll, mem_propertyNames_insertAll,
    or_iff_right notMem_propertyNames_empty, ← map_name_entries]
  constructor
  · intro h
    obtain ⟨e, he, rfl⟩ := List.mem_map.mp h
    obtain ⟨he, hkeep⟩ := List.mem_filter.mp he
    exact ⟨List.mem_map_of_mem he, hkeep⟩
  · rintro ⟨h, hkeep⟩
    obtain ⟨e, he, rfl⟩ := List.mem_map.mp h
    exact List.mem_map_of_mem (List.mem_filter.mpr ⟨he, hkeep⟩)

/-- A change of a shape keeps the same names of an object. -/
theorem mem_propertyNames_applyTo {object : ObjectSchema} {keys : List String} {n : String}
    (change : ShapeChange) : n ∈ (change.applyTo keys object).propertyNames ↔
      n ∈ object.propertyNames ∧ change.keeps keys n = true := by
  cases change with
  | setOptional optional => cases optional <;> exact (and_iff_left rfl).symm
  | keep => exact (and_iff_left rfl).symm
  | _ => exact mem_propertyNames_restrict

end ObjectSchema

/-! ## Names of declarations -/

namespace Types

variable {w : Workspace} {expand : Expand} {scope : Scope}

/-- The entries of an object type have the names that it uses for properties. -/
theorem mem_names_entriesOf {members : List TypeMember} {n : String} :
    n ∈ (entriesOf w expand scope members).map (·.name) ↔
      ⟨n, false⟩ ∈ NameUse.ofMembers members := by
  induction members with
  | nil => simp [entriesOf, NameUse.ofMembers]
  | cons member rest ih =>
      have hmember : n ∈ (entryOf w expand scope member).toList.map (·.name) ↔
          NameUse.ofMember? member = some ⟨n, false⟩ := by
        cases member with
        | property _ key _ type =>
            rw [entryOf, NameUse.ofMember?]
            cases key.name? <;> simp [eq_comm]
        | getter _ key type =>
            rw [entryOf, NameUse.ofMember?]
            cases key.name? <;> simp [eq_comm]
        | method _ key _ _ =>
            rw [entryOf, NameUse.ofMember?]
            cases key.name? <;> simp
        | other => simp [entryOf, NameUse.ofMember?]
      rw [entriesOf, List.map_append, List.mem_append, hmember, ih, NameUse.ofMembers,
        NameUse.ofMembers, List.filterMap_cons]
      cases NameUse.ofMember? member <;> simp [eq_comm]

/-- The object that a clause is read to. -/
def clauseObject? (w : Workspace) (expand : Expand) (scope : Scope) (parent : Heritage) :
    Option ObjectSchema :=
  parent.name?.bind fun name =>
    object? (schemaOf w expand scope (.reference name (parent.args.map (·.type))))

/-- The object of an interface. -/
def interfaceObject (w : Workspace) (expand : Expand) (scope : Scope) (decl : InterfaceDecl) :
    ObjectSchema :=
  ((decl.parents.filterMap (clauseObject? w expand scope)).foldl ObjectSchema.merge .empty).merge
    (.insertAll .empty (entriesOf w expand scope decl.members))

/-- An interface is read to its object. -/
theorem interfaceSchema_eq (decl : InterfaceDecl) :
    interfaceSchema w expand scope decl = .object (interfaceObject w expand scope decl) :=
  rfl

/-- The object of an interface has the names that its clauses are read to and those that it uses for
    properties itself. -/
theorem mem_names_interfaceObject {decl : InterfaceDecl} {n : String} :
    n ∈ (interfaceObject w expand scope decl).propertyNames ↔
      (∃ parent ∈ decl.parents, ∃ object, clauseObject? w expand scope parent = some object ∧
        n ∈ object.propertyNames) ∨ ⟨n, false⟩ ∈ NameUse.ofMembers decl.members := by
  rw [interfaceObject, ObjectSchema.mem_propertyNames_merge,
    ObjectSchema.mem_propertyNames_foldl_merge, ObjectSchema.mem_propertyNames_insertAll,
    mem_names_entriesOf, or_iff_right ObjectSchema.notMem_propertyNames_empty,
    or_iff_right ObjectSchema.notMem_propertyNames_empty]
  simp only [List.mem_filterMap]
  refine or_congr_left ⟨?_, ?_⟩
  · rintro ⟨object, ⟨parent, hparent, hobject⟩, hn⟩
    exact ⟨parent, hparent, object, hobject, hn⟩
  · rintro ⟨parent, hparent, object, hobject, hn⟩
    exact ⟨object, ⟨parent, hparent, hobject⟩, hn⟩

/-- A class is read to an object with the names of its fields. -/
theorem exists_classObject (value : ClassDef) : ∃ object,
    classSchema w expand scope value = .object object ∧
      ∀ n, n ∈ object.propertyNames ↔ ⟨n, false⟩ ∈ NameUse.ofFields value := by
  refine ⟨_, rfl, fun n => ?_⟩
  rw [ObjectSchema.mem_propertyNames_insertAll,
    or_iff_right ObjectSchema.notMem_propertyNames_empty, List.map_map, NameUse.ofFields]
  simp [Function.comp_def]

end Types

end ElementCatalog
