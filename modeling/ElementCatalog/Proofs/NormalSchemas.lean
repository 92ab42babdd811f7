import ElementCatalog.Proofs.KeptShapes
import ElementCatalog.Proofs.MergedSurfaces

/-!
# Schemas of types are in normal form

Toward: whatever type is read in a scope whose parameters stand for schemas in normal form, its
schema is in normal form, and its members are read in scopes of this kind.  The route:

* every way of making a schema of others keeps normal forms, so they are a kept property;
* however the surface of an implementation is found, its members were read from types of files.
-/

namespace ElementCatalog

open Source (AllowedKeys TypeExpr Expr)
open ElementCatalog.Types

/-! ## Objects -/

namespace ObjectSchema

variable {object : ObjectSchema}

/-- The object without properties is in normal form. -/
theorem Normal.empty : Normal empty :=
  ⟨.empty, fun _ h => absurd h List.not_mem_nil⟩

/-- Writing a property keeps an object in normal form. -/
theorem Normal.insert (h : object.Normal) (name : String) {schema : Schema}
    (hschema : schema.Normal) (required : Bool) : (object.insert name schema required).Normal := by
  refine ⟨h.names.insert name schema required, fun p hp => ?_⟩
  rcases Dictionary.mem_of_mem_set hp with heq | hp
  · rw [heq]
    exact hschema
  · exact h.properties p hp

/-- Without required names an object stays in normal form. -/
theorem Normal.withNothingRequired (h : object.Normal) :
    Normal { object with required := [] } :=
  ⟨⟨h.names.properties, List.nodup_nil, fun _ h => absurd h List.not_mem_nil⟩, h.properties⟩

/-- With all names required an object stays in normal form. -/
theorem Normal.withAllRequired (h : object.Normal) :
    Normal { object with required := Dictionary.names object.properties } :=
  ⟨⟨h.names.properties, h.names.properties, fun _ h => h⟩, h.properties⟩

end ObjectSchema

/-! ## Ways of making schemas -/

namespace Types

/-- One literal is an enumeration in normal form. -/
theorem literal_normal (value : Literal) : (Schema.literal value).Normal := by
  refine .enumeration (List.cons_ne_nil _ _) (List.pairwise_singleton _ _) fun other hother => ?_
  rw [List.mem_singleton.mp hother]

/-- The schema of any object is in normal form. -/
theorem anyObject_normal : Schema.anyObject.Normal :=
  Schema.normal_object.mpr .empty

/-- The names of an object in normal form are an enumeration in normal form: each name stands
    once. -/
theorem keysSchema_normal {schema : Schema} (h : schema.Normal) : (keysSchema schema).Normal := by
  cases h with
  | @object shape hnames hproperties =>
      rw [keysSchema]
      split
      · exact .primitive .string false
      · rename_i hsome
        refine .enumeration ?_ ?_ fun value hvalue => ?_
        · rw [ne_eq, List.map_eq_nil_iff, Dictionary.names, List.map_eq_nil_iff]
          exact fun hnil => hsome (List.isEmpty_iff.mpr hnil)
        · refine List.pairwise_map.mpr (hnames.properties.imp fun {a b} hab => ?_)
          exact ⟨beq_eq_false_iff_ne.mpr hab, beq_eq_false_iff_ne.mpr hab.symm⟩
        · obtain ⟨name, -, heq⟩ := List.mem_map.mp hvalue
          rw [← heq]
          rfl
  | _ => exact .primitive .string false

/-- Normal forms are kept, whatever the names of properties are. -/
theorem kept_normal : Kept (fun _ => True) Schema.Normal where
  unconstrained := .unconstrained
  primitive := .primitive
  literal := literal_normal
  array := ⟨fun | .array hitems => hitems, .array⟩
  union := Schema.union_normal
  empty := anyObject_normal
  insert hshape _ hschema required :=
    Schema.normal_object.mpr ((Schema.normal_object.mp hshape).insert _ hschema required)
  properties hshape p hp := ⟨trivial, (Schema.normal_object.mp hshape).properties p hp⟩
  nothingRequired hshape :=
    Schema.normal_object.mpr (Schema.normal_object.mp hshape).withNothingRequired
  allRequired hshape := Schema.normal_object.mpr (Schema.normal_object.mp hshape).withAllRequired
  keys := keysSchema_normal

end Types

/-! ## Types -/

/-- What the type parameters stand for is in normal form. -/
def Scope.Normal (scope : Scope) : Prop :=
  ∀ name schema, Dictionary.find? scope.bindings name = some schema → schema.Normal

/-- A file without type parameters binds nothing. -/
theorem Scope.Normal.ofFile (file : SourceFile) : (Scope.ofFile file).Normal :=
  Scope.All.ofFile file

/-- **Types are read to normal forms**: in a scope whose type parameters stand for schemas in normal
    form, every type is read to a schema in normal form. -/
theorem Workspace.schemaIn_normal (w : Workspace) {scope : Scope} (hscope : scope.Normal)
    (type : TypeExpr) : (w.schemaIn scope type).Normal :=
  kept_normal.schemaIn (fun _ _ => .any _) hscope (.any _)

/-- The schema of literal data is in normal form if those of the types in it are. -/
theorem inferred?_normal {read : TypeExpr → Schema} (hread : ∀ type, (read type).Normal) (e : Expr)
    (schema : Schema) (he : inferred? read e = some schema) : schema.Normal :=
  kept_normal.inferred? (fun type _ => hread type) e (.any _) schema he

/-! ## Shapes -/

/-- A member is read in a scope of schemas in normal form, and so is its callback. -/
structure ShapeMember.InNormalScope (m : ShapeMember) : Prop where
  scope : m.scope.Normal
  callback : ∀ c, m.callback = some c → c.scope.Normal

/-- All members of a shape are read in such scopes. -/
def Types.ShapeNormal (shape : List ShapeMember) : Prop :=
  ∀ m ∈ shape, m.InNormalScope

namespace Surface

variable {w : Workspace} {s : Surface}

/-- All members of a surface are read in such scopes. -/
def Normal (s : Surface) : Prop :=
  ShapeNormal s.shape

/-- The members that types of files bring in are read in such scopes. -/
theorem Merged.normal {shape : List ShapeMember} (h : Merged w shape) : ShapeNormal shape := by
  have hkeeps : ShapeKeeps (fun _ => True) Schema.Normal shape := by
    have hkeys (d : Declaration) (_ : w.Declares .type d) :
        AllowedKeys (fun _ => True) d.writtenKeys := .any _
    induction h with
    | nil => exact .nil
    | type _ file type ih => exact ih.merge (kept_normal.membersIn hkeys (.ofFile file) (.any _))
    | named _ file name args ih =>
        exact ih.merge (kept_normal.namedMembersIn hkeys (.ofFile file) name (.any _))
  exact fun m hm => ⟨(hkeeps m hm).scope, (hkeeps m hm).callback⟩

/-- **Shapes**: every member of the surface of a registered implementation is read in a scope of
    schemas in normal form. -/
theorem normal_of_surfaceOf {file : SourceFile} {r : Registration}
    (h : w.surfaceOf file r = .ok s) : s.Normal :=
  (isRead_of_surfaceOf h).merged.normal

end Surface

end ElementCatalog
