import ElementCatalog.Schema.Basic

/-!
# Normal forms — schemas without redundancy

A schema in normal form says everything once: kinds, literals and alternatives are not repeated,
alternatives are not nested, and what can be said as one enumeration or one multi-type is not spread
over alternatives. An object has each of its names once and requires only names that it has. A
schema is reduced if nothing is repeated or nested, whatever its enumerations list and its objects
require.
-/

namespace ElementCatalog

namespace Schema

/-- Two schemas differ, whichever of them is compared with the other. -/
def Differs (a b : Schema) : Prop :=
  a.same b = false ∧ b.same a = false

/-- The schema is an enumeration of a kind. -/
def isEnumerationOf (kind : Kind) : Schema → Bool
  | .enumeration kind' _ => kind' == kind
  | _ => false

/-- The schema is a primitive without a format, or a multi-type. -/
def isBare : Schema → Bool
  | .primitive _ dateTime => !dateTime
  | .multiType _ => true
  | _ => false

/-- The schema may stand among alternatives: it has none itself, and does not allow everything. -/
def isAlternative : Schema → Bool
  | .alternatives _ => false
  | .unconstrained => false
  | _ => true

end Schema

mutual

/-- What a schema is an alternative of, with alternatives opened at every depth. -/
def Schema.leaves : Schema → List Schema
  | .alternatives members => leavesOfAll members
  | schema => [schema]

/-- What several schemas are alternatives of, with alternatives opened at every depth. -/
def leavesOfAll : List Schema → List Schema
  | [] => []
  | schema :: rest => schema.leaves ++ leavesOfAll rest

end

/-- An object has every name once, and requires each name once and only if it has it. -/
structure ObjectSchema.NamesConsistent (shape : ObjectSchema) : Prop where
  properties : (Dictionary.names shape.properties).Nodup
  required : shape.required.Nodup
  own : ∀ name ∈ shape.required, name ∈ Dictionary.names shape.properties

/-- A schema in normal form, together with everything inside it. -/
inductive Schema.Normal : Schema → Prop where
  | primitive (kind : Kind) (dateTime : Bool) : Normal (.primitive kind dateTime)
  | multiType {kinds : List Kind} (htwo : 2 ≤ kinds.length) (hdistinct : kinds.Nodup) :
    Normal (.multiType kinds)
  | enumeration {kind : Kind} {values : List Literal} (hone : values ≠ [])
    (hdistinct : values.Pairwise fun a b => a.same b = false ∧ b.same a = false)
    (hkind : ∀ value ∈ values, value.kind = kind) : Normal (.enumeration kind values)
  | object {shape : ObjectSchema} (hnames : shape.NamesConsistent)
    (hproperties : ∀ p ∈ shape.properties, Normal p.2) : Normal (.object shape)
  | array {items : Schema} (hitems : Normal items) : Normal (.array items)
  | alternatives {members : List Schema} (htwo : 2 ≤ members.length)
    (hdistinct : members.Pairwise Schema.Differs)
    (hflat : ∀ member ∈ members, member.isAlternative = true)
    (hkinds : ∀ kind, ∃ member ∈ members, member.isEnumerationOf kind = false)
    (hbare : ∃ member ∈ members, member.isBare = false)
    (hmembers : ∀ member ∈ members, Normal member) : Normal (.alternatives members)
  | unconstrained : Normal .unconstrained

/-- A reduced schema, together with everything inside it. Enumerations may be empty or list literals
    of another kind, and objects may require any names. -/
inductive Schema.Reduced : Schema → Prop where
  | primitive (kind : Kind) (dateTime : Bool) : Reduced (.primitive kind dateTime)
  | multiType {kinds : List Kind} (htwo : 2 ≤ kinds.length) (hdistinct : kinds.Nodup) :
    Reduced (.multiType kinds)
  | enumeration {kind : Kind} {values : List Literal}
    (hdistinct : values.Pairwise fun a b => a.same b = false ∧ b.same a = false) :
    Reduced (.enumeration kind values)
  | object {shape : ObjectSchema} (hnames : (Dictionary.names shape.properties).Nodup)
    (hproperties : ∀ p ∈ shape.properties, Reduced p.2) : Reduced (.object shape)
  | array {items : Schema} (hitems : Reduced items) : Reduced (.array items)
  | alternatives {members : List Schema} (htwo : 2 ≤ members.length)
    (hdistinct : members.Pairwise Schema.Differs)
    (hflat : ∀ member ∈ members, member.isAlternative = true)
    (hkinds : ∀ kind, ∃ member ∈ members, member.isEnumerationOf kind = false)
    (hbare : ∃ member ∈ members, member.isBare = false)
    (hmembers : ∀ member ∈ members, Reduced member) : Reduced (.alternatives members)
  | unconstrained : Reduced .unconstrained

/-- A schema in normal form is reduced. -/
theorem Schema.Normal.reduced {schema : Schema} (h : schema.Normal) : schema.Reduced := by
  induction h with
  | primitive kind dateTime => exact .primitive kind dateTime
  | multiType htwo hdistinct => exact .multiType htwo hdistinct
  | enumeration _ hdistinct _ => exact .enumeration hdistinct
  | object hnames _ ih => exact .object hnames.properties ih
  | array _ ih => exact .array ih
  | alternatives htwo hdistinct hflat hkinds hbare _ ih =>
      exact .alternatives htwo hdistinct hflat hkinds hbare ih
  | unconstrained => exact .unconstrained

/-- An object whose names are consistent and whose properties are in normal form. -/
structure ObjectSchema.Normal (shape : ObjectSchema) : Prop where
  names : shape.NamesConsistent
  properties : ∀ p ∈ shape.properties, p.2.Normal

/-- The schema of an object is in normal form exactly if the object is. -/
theorem Schema.normal_object {shape : ObjectSchema} :
    (Schema.object shape).Normal ↔ shape.Normal := by
  constructor
  · intro h
    cases h with
    | object hnames hproperties => exact ⟨hnames, hproperties⟩
  · exact fun h => .object h.names h.properties

end ElementCatalog
