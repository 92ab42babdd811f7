import ElementCatalog.Proofs.CatalogAssembly
import ElementCatalog.Proofs.NormalSchemas

/-!
# Catalogs are well formed

Toward: in every catalog, no two components have one tag name, no two properties of a component and
no two of its events have one name, and all schemas are in normal form.  The route:

* the schemas that are inferred from literals are in normal form, as those of types are;
* properties and events are entered under their own names, so each name stands once, whatever
  replaces or completes what;
* along the walk through a body, the event values that variables hold and the events that were
  found have payloads in normal form.
-/

namespace ElementCatalog

open Source (TypeExpr Expr Property UnaryOperator Node ClassMember Position)
open ElementCatalog.Types

/-! ## Well-formed catalogs -/

/-- A payload is in normal form, if there is one. -/
def PayloadNormal (payload : Option Schema) : Prop :=
  ∀ schema, payload = some schema → schema.Normal

/-- The names of a component's properties and those of its events stand once each, and all of their
    schemas are in normal form. -/
structure Component.WellFormed (c : Component) : Prop where
  propertyNames : (c.properties.map (·.name)).Nodup
  eventNames : (c.events.map (·.name)).Nodup
  schemas : ∀ p ∈ c.properties, p.schema.Normal
  payloads : ∀ e ∈ c.events, PayloadNormal e.payload

/-- The tag names of a catalog stand once each, and its components are well formed. -/
structure Catalog.WellFormed (catalog : Catalog) : Prop where
  tagNames : (catalog.components.map (·.tagName)).Nodup
  components : ∀ c ∈ catalog.components, c.WellFormed

/-! ## Entries under their own names -/

namespace Dictionary

variable {α : Type}

/-- Every value stands under its own name, no name stands twice, and all values have a property. -/
structure Keyed (name : α → String) (P : α → Prop) (entries : Dictionary α) : Prop where
  nodup : (names entries).Nodup
  own : ∀ p ∈ entries, name p.2 = p.1
  holds : ∀ p ∈ entries, P p.2

variable {name : α → String} {P : α → Prop} {entries : Dictionary α}

/-- Without entries. -/
theorem Keyed.nil : Keyed name P [] :=
  ⟨List.nodup_nil, fun _ h => absurd h List.not_mem_nil, fun _ h => absurd h List.not_mem_nil⟩

/-- Writing a value under its own name. -/
theorem Keyed.set (h : Keyed name P entries) {key : String} {value : α} (hkey : name value = key)
    (hvalue : P value) : Keyed name P (Dictionary.set entries key value) := by
  refine ⟨nodup_names_set h.nodup key value, fun p hp => ?_, fun p hp => ?_⟩
  · rcases mem_of_mem_set hp with heq | hp
    · rw [heq]
      exact hkey
    · exact h.own p hp
  · rcases mem_of_mem_set hp with heq | hp
    · rw [heq]
      exact hvalue
    · exact h.holds p hp

/-- Writing a value under its own name if the name is not there yet. -/
theorem Keyed.setNew (h : Keyed name P entries) {key : String} {value : α}
    (hkey : name value = key) (hvalue : P value) :
    Keyed name P (Dictionary.setNew entries key value) := by
  rw [Dictionary.setNew]
  split
  · exact h
  · exact h.set hkey hvalue

/-- The values have different names. -/
theorem Keyed.nodup_values (h : Keyed name P entries) : ((values entries).map name).Nodup := by
  have hnames : (values entries).map name = names entries := by
    rw [values, names, List.map_map]
    exact List.map_congr_left h.own
  rw [hnames]
  exact h.nodup

/-- The values have the property. -/
theorem Keyed.of_mem_values (h : Keyed name P entries) : ∀ value ∈ values entries, P value := by
  intro value hvalue
  obtain ⟨p, hp, heq⟩ := List.mem_map.mp hvalue
  rw [← heq]
  exact h.holds p hp

/-- What is in a dictionary after a name is erased was there before. -/
theorem mem_of_mem_erase {key : String} {p : String × α} (h : p ∈ erase entries key) :
    p ∈ entries := by
  induction entries with
  | nil => exact h
  | cons entry rest ih =>
      obtain ⟨n, v⟩ := entry
      rw [erase] at h
      split at h
      · exact List.mem_cons_of_mem _ h
      · rcases List.mem_cons.mp h with heq | h
        · exact heq ▸ List.mem_cons_self
        · exact List.mem_cons_of_mem _ (ih h)

end Dictionary

/-! ## Payloads -/

/-- No payload at all. -/
theorem PayloadNormal.none : PayloadNormal none :=
  fun _ h => nomatch h

/-- The first of two payloads that is there. -/
theorem PayloadNormal.or {first second : Option Schema} (h : PayloadNormal first)
    (hsecond : PayloadNormal second) : PayloadNormal (first.or second) := by
  intro schema hschema
  rcases Option.or_eq_some_iff.mp hschema with hfirst | ⟨-, hschema⟩
  · exact h schema hfirst
  · exact hsecond schema hschema

/-- A payload that is made from something that may be missing. -/
theorem PayloadNormal.map {α : Type} {read : α → Schema} (h : ∀ a, (read a).Normal)
    (found : Option α) : PayloadNormal (found.map read) := by
  intro schema hschema
  obtain ⟨a, -, heq⟩ := Option.map_eq_some_iff.mp hschema
  rw [← heq]
  exact h a

namespace Surface

variable {w : Workspace} {s : Surface}

/-- The schema of a type in the file of a component is in normal form. -/
theorem schemaOf_normal (s : Surface) (w : Workspace) (type : TypeExpr) :
    (s.schemaOf w type).Normal :=
  w.schemaIn_normal (.ofFile s.file) type

/-! ## Properties -/

/-- Properties stand under their own names and have schemas in normal form. -/
def PropertiesNormal (properties : Dictionary PropertyDescriptor) : Prop :=
  Dictionary.Keyed (·.name) (·.schema.Normal) properties

/-- A schema that a constructor stands for is in normal form. -/
theorem constructorSchema_normal (e : Expr) : (constructorSchema e).Normal := by
  rw [constructorSchema]
  split
  · exact .primitive .string false
  · exact .primitive .number false
  · exact .primitive .boolean false
  · exact .array .unconstrained
  · exact anyObject_normal
  · exact .primitive .string true
  · exact .unconstrained

/-- The schema that a value is inferred to have, if there is a value, is in normal form. -/
theorem inferred_getD_normal (s : Surface) (w : Workspace) (value : Option Expr) :
    ((value.bind (inferred? (s.schemaOf w))).getD .unconstrained).Normal := by
  refine kept_normal.getD fun schema hschema => ?_
  obtain ⟨e, -, he⟩ := Option.bind_eq_some_iff.mp hschema
  exact inferred?_normal (s.schemaOf_normal w) e schema he

/-- A decorated field declares a property with a schema in normal form. -/
theorem decoratedProperty?_normal {field : FieldCandidate} {p : PropertyDescriptor}
    (h : decoratedProperty? w s field = some p) : p.schema.Normal := by
  obtain ⟨d, -, heq⟩ := Option.map_eq_some_iff.mp h
  rw [← heq]
  dsimp only [fieldProperty]
  split
  · exact s.schemaOf_normal w _
  · split
    · exact constructorSchema_normal _
    · exact s.inferred_getD_normal w field.value

/-- A field that a factory makes declares a property with a schema in normal form. -/
theorem factoryProperty?_normal {field : FieldCandidate} {p : PropertyDescriptor}
    (h : factoryProperty? w s field = some p) : p.schema.Normal := by
  rw [factoryProperty?] at h
  split at h
  · obtain ⟨required, -, heq⟩ := Option.map_eq_some_iff.mp h
    rw [← heq]
    dsimp only [fieldProperty]
    split
    · exact s.schemaOf_normal w _
    · exact s.inferred_getD_normal w _
  · cases h

/-- A member of the input shape declares a property with a schema in normal form. -/
theorem shapeProperty?_normal {member : ShapeMember} (hmember : member.InNormalScope)
    {p : PropertyDescriptor} (h : shapeProperty? w s member = some p) : p.schema.Normal := by
  rw [shapeProperty?] at h
  split at h
  · cases h
  · obtain ⟨type, -, heq⟩ := Option.map_eq_some_iff.mp h
    rw [← heq]
    exact w.schemaIn_normal hmember.scope type

/-- All declared properties have schemas in normal form. -/
theorem declaredProperties_normal (h : s.Normal) :
    ∀ p ∈ declaredProperties w s, p.schema.Normal := by
  intro p hp
  rcases List.mem_append.mp hp with hfield | hmember
  · obtain ⟨field, -, hfield⟩ := List.mem_filterMap.mp hfield
    rcases Option.or_eq_some_iff.mp hfield with hdecorated | ⟨-, hmade⟩
    · exact decoratedProperty?_normal hdecorated
    · exact factoryProperty?_normal hmade
  · obtain ⟨member, hmember, hp⟩ := List.mem_filterMap.mp hmember
    exact shapeProperty?_normal (h member hmember) hp

/-- The first properties of each name stand under their own names. -/
theorem firstByName_normal {properties : List PropertyDescriptor}
    (h : ∀ p ∈ properties, p.schema.Normal) : PropertiesNormal (firstByName properties) :=
  List.foldlRecOn (motive := PropertiesNormal) properties _ .nil fun _ hfound p hp =>
    hfound.setNew rfl (h p hp)

/-- An entry of the static block completes a property or adds one under its own name. -/
theorem addLegacy_normal {properties : Dictionary PropertyDescriptor}
    (h : PropertiesNormal properties) (entry : Property) :
    PropertiesNormal (addLegacy s properties entry) := by
  cases entry with
  | keyValue key value =>
      rw [addLegacy]
      cases key.name? with
      | none => exact h
      | some name =>
          dsimp only
          split
          · rename_i found hfound
            have hmem := Dictionary.mem_of_find? hfound
            exact Dictionary.Keyed.set h (h.own _ hmem) (h.holds _ hmem)
          · refine Dictionary.Keyed.set h rfl ?_
            dsimp only
            split
            · refine kept_normal.getD fun schema hschema => ?_
              obtain ⟨type, -, heq⟩ := Option.map_eq_some_iff.mp hschema
              rw [← heq]
              exact constructorSchema_normal type
            · exact constructorSchema_normal value
  | _ => exact h

/-- The properties of a component have different names and schemas in normal form. -/
theorem properties_normal (h : s.Normal) :
    ((s.properties w).map (·.name)).Nodup ∧ ∀ p ∈ s.properties w, p.schema.Normal := by
  have hdeclared : PropertiesNormal (firstByName (declaredProperties w s)) :=
    firstByName_normal (declaredProperties_normal h)
  rw [properties]
  split
  · rename_i entries _
    have hall := List.foldlRecOn (motive := PropertiesNormal) entries (addLegacy s) hdeclared
      fun _ hfound entry _ => addLegacy_normal hfound entry
    exact ⟨hall.nodup_values, hall.of_mem_values⟩
  · exact ⟨hdeclared.nodup_values, hdeclared.of_mem_values⟩

/-! ## Event values -/

/-- The payload of an event value is in normal form. -/
theorem payload?_normal (w : Workspace) (s : Surface) (typeArgs : List Source.TypeUse)
    (options : Option (List Property)) : PayloadNormal (payload? w s typeArgs options) := by
  have hgiven : PayloadNormal (typeArgs.head?.map fun arg => s.schemaOf w arg.type) :=
    .map (fun (arg : Source.TypeUse) => s.schemaOf_normal w arg.type) _
  refine .or (.or (fun schema hschema => ?_) hgiven) ?_
  · obtain ⟨e, -, he⟩ := Option.bind_eq_some_iff.mp hschema
    exact inferred?_normal (s.schemaOf_normal w) e schema he
  · split
    · intro schema hschema
      cases hschema
      exact .unconstrained
    · exact PayloadNormal.none

/-- The event value of a constructor call has a payload in normal form. -/
theorem construction?_normal {callee : Expr} {typeArgs : List Source.TypeUse} {args : List Expr}
    {c : Construction} (h : construction? w s callee typeArgs args = some c) :
    PayloadNormal c.payload := by
  obtain ⟨kind, -, h⟩ := Option.bind_eq_some_iff.mp h
  obtain ⟨_, -, h⟩ := Option.bind_eq_some_iff.mp h
  obtain ⟨name, -, h⟩ := Option.bind_eq_some_iff.mp h
  cases h
  exact payload?_normal w s typeArgs _

/-! ## The walk through a body -/

/-- The event values that variables hold and the events found have payloads in normal form. -/
structure Walk.Normal (walk : Walk) : Prop where
  held : ∀ p ∈ walk.held, PayloadNormal p.2.payload
  events : ∀ e ∈ walk.events, PayloadNormal e.payload

variable {walk : Walk}

/-- At the start nothing is known. -/
theorem Walk.Normal.start : Walk.Normal {} :=
  ⟨fun _ h => absurd h List.not_mem_nil, fun _ h => absurd h List.not_mem_nil⟩

/-- A dispatched event value has a payload in normal form. -/
theorem Walk.Normal.dispatched? (h : walk.Normal) {callee : Expr} {args : List Expr}
    {c : Construction} (hc : Surface.dispatched? w s walk callee args = some c) :
    PayloadNormal c.payload := by
  rw [Surface.dispatched?.eq_def] at hc
  split at hc
  · split at hc
    · split at hc
      · exact construction?_normal hc
      · exact h.held _ (Dictionary.mem_of_find? hc)
      · cases hc
    · cases hc
  · cases hc

/-- Forgetting what parameters hide. -/
theorem Walk.Normal.hide (h : walk.Normal) (params : List Source.Pattern) :
    (walk.hide params).Normal := by
  refine ⟨?_, h.events⟩
  refine List.foldlRecOn (motive := fun held : Dictionary Construction =>
    ∀ p ∈ held, PayloadNormal p.2.payload) params _ h.held fun held hheld param _ => ?_
  split
  · exact fun p hp => hheld p (Dictionary.mem_of_mem_erase hp)
  · exact hheld

/-- Entering a node. -/
theorem Walk.Normal.enter (h : walk.Normal) (anchors : List (List Position)) (n : Node) :
    (walk.enter w s anchors n).Normal := by
  rw [Walk.enter.eq_def]
  split
  · split
    · rename_i value hvalue
      refine ⟨h.held, List.forall_mem_append.mpr ⟨h.events, List.forall_mem_singleton.mpr ?_⟩⟩
      exact h.dispatched? hvalue
    · exact h
  · split
    · split
      · rename_i value hvalue
        refine ⟨fun p hp => ?_, h.events⟩
        rcases Dictionary.mem_of_mem_set hp with heq | hp
        · rw [heq]
          exact construction?_normal hvalue
        · exact h.held p hp
      · exact h
    · exact h
  · exact h.hide _
  · exact h.hide _
  · exact h.hide _
  · exact h

/-- Visiting a node with everything inside it. -/
theorem Walk.Normal.visit {walk : Walk} (h : walk.Normal) (anchors : List (List Position))
    (n : Node) : (walk.visit w s anchors n).Normal := by
  have hinside : Walk.Normal (n.children.attach.foldl
      (fun walk c => Walk.visit w s (innerAnchors anchors n) walk c.1)
      (walk.enter w s anchors n)) :=
    List.foldlRecOn (motive := Walk.Normal) _ _ (h.enter anchors n)
      fun _ hwalk c _ => Walk.Normal.visit hwalk (innerAnchors anchors n) c.1
  rw [Walk.visit]
  dsimp only
  split
  · exact ⟨h.held, hinside.events⟩
  · exact hinside
termination_by sizeOf n
decreasing_by exact Node.sizeOf_lt_of_mem n c.1 c.2

/-- The events that calls dispatch have payloads in normal form. -/
theorem dispatchedEvents_normal (w : Workspace) (s : Surface) :
    ∀ e ∈ dispatchedEvents w s, PayloadNormal e.payload := by
  have hmembers : Walk.Normal (((s.implementedBy.map (·.members)).getD []).foldl
      (Walk.visitMember w s) {}) :=
    List.foldlRecOn (motive := Walk.Normal) _ _ .start
      fun _ hwalk m _ => ⟨hwalk.held, (hwalk.visit [memberAnchors m] (.member m)).events⟩
  rw [dispatchedEvents]
  split
  · refine (List.foldlRecOn (motive := Walk.Normal) _ _ hmembers fun _ hwalk stmt _ => ?_).events
    exact hwalk.visit [] (.stmt stmt)
  · exact (hmembers.visit [] _).events
  · exact hmembers.events

/-! ## Events -/

/-- The events that callbacks stand for have payloads in normal form. -/
theorem callbackEvents_normal (h : s.Normal) :
    ∀ e ∈ callbackEvents w s, PayloadNormal e.payload := by
  intro e he
  obtain ⟨member, hmember, he⟩ := List.mem_filterMap.mp he
  rw [callbackEvent?] at he
  split at he
  · rename_i part callback _ hcallback
    cases he
    exact .map (w.schemaIn_normal ((h member hmember).callback callback hcallback)) _
  · cases he

/-- Events stand under their own names and have payloads in normal form. -/
def EventsNormal (events : Dictionary EventDescriptor) : Prop :=
  Dictionary.Keyed (·.name) (fun e => PayloadNormal e.payload) events

/-- The last events of each name stand under their own names. -/
theorem lastByName_normal {events : List EventDescriptor}
    (h : ∀ e ∈ events, PayloadNormal e.payload) : EventsNormal (lastByName events) :=
  List.foldlRecOn (motive := EventsNormal) events _ .nil fun _ hfound e he =>
    hfound.set rfl (h e he)

/-- The events of a component have different names and payloads in normal form. -/
theorem events_normal (h : s.Normal) :
    ((s.events w).map (·.name)).Nodup ∧ ∀ e ∈ s.events w, PayloadNormal e.payload := by
  have hall : ∀ e ∈ documentedEvents s ++ callbackEvents w s ++ dispatchedEvents w s,
      PayloadNormal e.payload := by
    refine List.forall_mem_append.mpr ⟨List.forall_mem_append.mpr ⟨fun e he => ?_,
      callbackEvents_normal h⟩, dispatchedEvents_normal w s⟩
    obtain ⟨fired, -, heq⟩ := List.mem_map.mp he
    rw [← heq]
    exact PayloadNormal.none
  exact ⟨(lastByName_normal hall).nodup_values, (lastByName_normal hall).of_mem_values⟩

end Surface

/-! ## The catalog -/

namespace Workspace

/-- What a registration makes is well formed. -/
theorem wellFormed_of_outcome? {w : Workspace} {r : Registration} {c : Component}
    (h : w.outcome? r = some c) : c.WellFormed := by
  obtain ⟨file, -, hfile⟩ := Option.bind_eq_some_iff.mp h
  rw [registered] at hfile
  cases hs : w.surfaceOf file r with
  | error diagnostic =>
      rw [hs] at hfile
      cases hfile
  | ok s =>
      rw [hs] at hfile
      cases hfile
      have hnormal := Surface.normal_of_surfaceOf hs
      obtain ⟨hproperties, hschemas⟩ := Surface.properties_normal (w := w) hnormal
      obtain ⟨hevents, hpayloads⟩ := Surface.events_normal (w := w) hnormal
      exact ⟨hproperties, hevents, hschemas, hpayloads⟩

/-- **Catalogs are well formed**: whatever the program and its conventions, in its catalog no two
    components have one tag name, no two properties and no two events of a component have one name,
    and every schema of a property or a payload is in normal form, with everything inside it. -/
theorem assemble_wellFormed (w : Workspace) (runtime : Runtime) :
    (w.assemble runtime).1.WellFormed := by
  refine ⟨?_, fun c hc => ?_⟩
  · rw [components_assemble]
    exact w.nodup_tagNames_winners _
  · rw [components_assemble] at hc
    obtain ⟨r, -, houtcome⟩ := exists_of_mem_winners hc
    exact wellFormed_of_outcome? houtcome

end Workspace

end ElementCatalog
