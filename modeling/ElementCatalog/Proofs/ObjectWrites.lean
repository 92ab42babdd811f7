import ElementCatalog.Proofs.DeclarationReadings
import ElementCatalog.Proofs.DictionaryWrites

/-!
# Objects as they are written — properties in order of first writing, and who is required

An object is made by writing single properties and by merging other objects over it.  Both come
down to writes of single names.  Toward: after any such operations the properties are the written
names in order of first writing, each as it was written last, the required names are those that were
required by their last write, and merging two objects one after another is merging them merged.  The
route:

* properties are a dictionary that is written, so their names are the written ones without
  repetitions (`propertyNames_insertAll`);
* what an object says of a name after some writes is what the last of its writes says, so this tells
  the properties and the required names (`IsWrittenBy.insertAll`); operations are writes
  (`isWrittenBy_run`);
* a merged object writes its properties as a dictionary, and decides which of its names are required
  (`properties_merge`, `mem_required_merge`).
-/

namespace ElementCatalog

namespace ObjectSchema

/-! ## Writes -/

/-- Writes of properties are writes of their schemas. -/
theorem properties_insertAll (object : ObjectSchema) (writes : List PropertyEntry) :
    (object.insertAll writes).properties =
      Dictionary.setAll object.properties (writes.map fun e => (e.name, e.schema)) := by
  induction writes generalizing object with
  | nil => rfl
  | cons e rest ih => exact ih (object.insert e.name e.schema e.required)

/-- The names of properties stand in order of first writing. -/
theorem propertyNames_insertAll (writes : List PropertyEntry) :
    (empty.insertAll writes).propertyNames = (writes.map (·.name)).eraseDups := by
  have hnames : Dictionary.names (writes.map fun e => (e.name, e.schema)) = writes.map (·.name) :=
    List.map_map
  rw [propertyNames, properties_insertAll, ← hnames]
  exact Dictionary.names_setAll _

/-- The object is what some writes make of the object without properties. -/
structure IsWrittenBy (object : ObjectSchema) (writes : List PropertyEntry) : Prop where
  /-- The names of the properties stand in order of first writing. -/
  names : object.propertyNames = (writes.map (·.name)).eraseDups
  /-- A property has the schema that was written last. -/
  properties : ∀ n schema, (n, schema) ∈ object.properties ↔
    ∃ e, lastWrite? writes n = some e ∧ e.schema = schema
  /-- A name is required exactly if its last write says so. -/
  required : ∀ n, n ∈ object.required ↔ ∃ e, lastWrite? writes n = some e ∧ e.required = true
  /-- No name is required twice. -/
  once : object.required.Nodup
  /-- Only properties are required. -/
  own : ∀ n ∈ object.required, n ∈ object.propertyNames

/-- Where names are consistent, an entry is what the object says of its name. -/
theorem NamesConsistent.mem_properties_iff {object : ObjectSchema} (h : object.NamesConsistent)
    {n : String} {schema : Schema} :
    (n, schema) ∈ object.properties ↔ ∃ required, object.property? n = some (schema, required) := by
  constructor
  · intro hmem
    exact ⟨object.required.contains n, by
      rw [property?, Dictionary.find?_of_mem h.properties hmem, Option.map_some]⟩
  · rintro ⟨required, hsaid⟩
    obtain ⟨found, hfound, heq⟩ := Option.map_eq_some_iff.mp hsaid
    cases heq
    exact Dictionary.mem_of_find? hfound

/-- A name is required after some writes if its last write says so, or if it was and is not among
    them. -/
theorem mem_required_insertAll {object : ObjectSchema} {writes : List PropertyEntry} {n : String} :
    n ∈ (object.insertAll writes).required ↔
      (∃ e, lastWrite? writes n = some e ∧ e.required = true) ∨
        lastWrite? writes n = none ∧ n ∈ object.required := by
  induction writes generalizing object with
  | nil => simp [insertAll, lastWrite?]
  | cons e rest ih =>
      show n ∈ ((object.insert e.name e.schema e.required).insertAll rest).required ↔ _
      rw [ih, mem_required_insert, lastWrite?_cons]
      cases lastWrite? rest n with
      | some later => simp
      | none =>
          by_cases h : n = e.name
          · simp [h]
          · simp [h]

/-- **Writes**: what is written one after another is told by the first and the last write of each
    name. -/
theorem IsWrittenBy.insertAll (writes : List PropertyEntry) :
    (empty.insertAll writes).IsWrittenBy writes := by
  have hconsistent : (empty.insertAll writes).NamesConsistent := .insertAll .empty writes
  refine ⟨propertyNames_insertAll writes, fun n schema => ?_, fun n => ?_, hconsistent.required,
    hconsistent.own⟩
  · rw [hconsistent.mem_properties_iff, property?_insertAll, property?_empty, Option.or_none]
    simp only [Option.map_eq_some_iff, Prod.mk.injEq]
    constructor
    · rintro ⟨_, e, he, hschema, -⟩
      exact ⟨e, he, hschema⟩
    · rintro ⟨e, he, hschema⟩
      exact ⟨e.required, e, he, hschema, rfl⟩
  · rw [mem_required_insertAll, or_iff_left]
    exact fun h => List.not_mem_nil h.2

/-! ## Operations -/

/-- A way to change an object. -/
inductive Operation where
  | insert (name : String) (schema : Schema) (required : Bool)
  | merge (other : ObjectSchema)

/-- Change an object. -/
def Operation.apply (object : ObjectSchema) : Operation → ObjectSchema
  | .insert name schema required => object.insert name schema required
  | .merge other => object.merge other

/-- What an operation writes.  Merging writes each property of the other object, required if the
    other object lists it; a name that it lists without having it is not written. -/
def Operation.writes : Operation → List PropertyEntry
  | .insert name schema required => [⟨name, schema, required⟩]
  | .merge other => other.entries

/-- The object that operations make of the object without properties. -/
def run (operations : List Operation) : ObjectSchema :=
  operations.foldl Operation.apply empty

/-- An operation is its writes. -/
theorem Operation.apply_eq_insertAll (object : ObjectSchema) (operation : Operation) :
    operation.apply object = object.insertAll operation.writes := by
  cases operation with
  | insert name schema required => rfl
  | merge other => exact merge_eq_insertAll object other

/-- Operations are their writes, one after another. -/
theorem run_eq_insertAll (operations : List Operation) :
    run operations = empty.insertAll (operations.flatMap Operation.writes) := by
  induction operations using List.reverseRecOn with
  | nil => rfl
  | append_singleton operations operation ih =>
      rw [run, List.foldl_append, List.foldl_cons, List.foldl_nil, ← run, ih,
        Operation.apply_eq_insertAll, List.flatMap_append, List.flatMap_singleton]
      simp only [ObjectSchema.insertAll, List.foldl_append]

/-- **Operations**: an object is told by the first and the last write of each name. -/
theorem isWrittenBy_run (operations : List Operation) :
    (run operations).IsWrittenBy (operations.flatMap Operation.writes) := by
  rw [run_eq_insertAll]
  exact .insertAll _

/-! ## Merging twice -/

/-- Merging writes the properties of the other object. -/
theorem properties_merge (object other : ObjectSchema) :
    (object.merge other).properties = Dictionary.setAll object.properties other.properties := by
  rw [merge_eq_insertAll, properties_insertAll, entries, List.map_map]
  exact congrArg (Dictionary.setAll object.properties) (List.map_id other.properties)

/-- A name has no last write exactly if it is not written. -/
theorem lastWrite?_eq_none_iff {writes : List PropertyEntry} {n : String} :
    lastWrite? writes n = none ↔ n ∉ writes.map (·.name) := by
  simp [lastWrite?, List.find?_eq_none]

/-- The last write of a name is a write of this name. -/
theorem of_lastWrite?_eq_some {writes : List PropertyEntry} {n : String} {e : PropertyEntry}
    (h : lastWrite? writes n = some e) : e ∈ writes ∧ e.name = n := by
  rw [lastWrite?] at h
  have hname := List.find?_some h
  exact ⟨List.mem_reverse.mp (List.mem_of_find?_eq_some h), eq_of_beq hname⟩

/-- The last entry of a name is required exactly if the object lists the name. -/
theorem required_of_lastWrite?_entries {object : ObjectSchema} {n : String} {e : PropertyEntry}
    (h : lastWrite? object.entries n = some e) : e.required = object.required.contains n := by
  obtain ⟨hmem, hname⟩ := of_lastWrite?_eq_some h
  obtain ⟨p, -, rfl⟩ := List.mem_map.mp hmem
  rw [← hname]

/-- A merged object decides about the names that it has, and leaves the others. -/
theorem mem_required_merge {object other : ObjectSchema} {n : String} :
    n ∈ (object.merge other).required ↔
      if n ∈ other.propertyNames then n ∈ other.required else n ∈ object.required := by
  rw [merge_eq_insertAll, mem_required_insertAll, ← map_name_entries]
  cases h : lastWrite? other.entries n with
  | none => simp [lastWrite?_eq_none_iff.mp h]
  | some e =>
      have hmem : n ∈ other.entries.map (·.name) := by
        by_contra hnone
        rw [lastWrite?_eq_none_iff.mpr hnone] at h
        cases h
      rw [if_pos hmem]
      simp [required_of_lastWrite?_entries h]

/-- **Merging is associative** as far as properties and the set of required names go. -/
theorem merge_merge (x : ObjectSchema) {a : ObjectSchema} (b : ObjectSchema)
    (ha : (Dictionary.names a.properties).Nodup) :
    ((x.merge a).merge b).properties = (x.merge (a.merge b)).properties ∧
      ∀ n, n ∈ ((x.merge a).merge b).required ↔ n ∈ (x.merge (a.merge b)).required := by
  refine ⟨?_, fun n => ?_⟩
  · simp only [properties_merge]
    exact (Dictionary.setAll_setAll ha _ _).symm
  · simp only [mem_required_merge, mem_propertyNames_merge]
    by_cases hb : n ∈ b.propertyNames
    · simp [hb]
    · simp [hb]

/-- **Objects keep their required names consistent.**  Whatever is written and merged, from the
    object without properties on: the properties stand in order of first writing, each with the
    schema that was written last; a name is required exactly if its last write says so, once, and
    only if it is a property.  Merging two objects one after another is merging the second into the
    first and both into the object, for a first object in which every name stands once. -/
theorem operations_keep_required_consistent :
    (∀ operations : List Operation,
      (run operations).IsWrittenBy (operations.flatMap Operation.writes)) ∧
    ∀ x a b : ObjectSchema, (Dictionary.names a.properties).Nodup →
      ((x.merge a).merge b).properties = (x.merge (a.merge b)).properties ∧
        ∀ n, n ∈ ((x.merge a).merge b).required ↔ n ∈ (x.merge (a.merge b)).required :=
  ⟨isWrittenBy_run, fun x _ b ha => merge_merge x b ha⟩

/-- Two objects that overlap, one of which requires a name twice and both a name that they do not
    have: merged in either way they require the same names, but not in the same order. -/
theorem overlapping_objects_merged :
    let x : ObjectSchema := ⟨[("id", .string)], ["id", "gone"]⟩
    let a : ObjectSchema := ⟨[("open", .boolean), ("id", .number)], ["open", "id", "open", "ghost"]⟩
    let b : ObjectSchema := ⟨[("open", .string)], ["open", "title"]⟩
    (Dictionary.names a.properties).Nodup ∧
      ((x.merge a).merge b).required = ["gone", "id", "open"] ∧
      (x.merge (a.merge b)).required = ["gone", "open", "id"] ∧
      ((x.merge a).merge b).properties = (x.merge (a.merge b)).properties ∧
      ∀ n, n ∈ ((x.merge a).merge b).required ↔ n ∈ (x.merge (a.merge b)).required := by
  intro x a b
  have ha : (Dictionary.names a.properties).Nodup := by decide
  exact ⟨ha, by decide, by decide, operations_keep_required_consistent.2 x a b ha⟩

end ObjectSchema

end ElementCatalog
