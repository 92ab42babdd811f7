import ElementCatalog.Json.Value
import ElementCatalog.Schema.Basic

/-!
# Acceptance — the values that a schema allows

A schema accepts JSON values in the sense of JSON Schema: a kind accepts the values of that kind, an
enumeration the literals that it lists, and alternatives whatever one of them accepts. An object
must have the required fields, and a field with a property must be accepted by its schema; fields
without a property are free. The format of a string is a remark and rejects nothing.
-/

namespace ElementCatalog

/-- The literal that a JSON value is. Both forms of numbers are numbers. -/
def Json.literal? : Json → Option Literal
  | .string text => some (.string text)
  | .int n => some (.number (.ofInt n))
  | .float x => some (.number x)
  | .bool b => some (.boolean b)
  | _ => none

/-- A JSON value is a literal. -/
def Literal.holds (literal : Literal) (v : Json) : Bool :=
  v.literal?.any (·.same literal)

/-- A JSON value is of a kind. -/
def Kind.holds : Kind → Json → Bool
  | .string, .string _ => true
  | .number, .int _ => true
  | .number, .float _ => true
  | .boolean, .bool _ => true
  | .null, .null => true
  | _, _ => false

mutual

/-- A schema accepts a value. -/
def Schema.accepts : Schema → Json → Bool
  | .primitive kind _, v => kind.holds v
  | .multiType kinds, v => kinds.any (·.holds v)
  | .enumeration kind values, v => kind.holds v && values.any (·.holds v)
  | .object shape, v =>
    match v with
    | .object fields => ObjectSchema.accepts shape fields
    | _ => false
  | .array items, v =>
    match v with
    | .array values => values.all (Schema.accepts items)
    | _ => false
  | .alternatives members, v => someAccepts members v
  | .unconstrained, _ => true

/-- An object schema accepts the fields of an object. -/
def ObjectSchema.accepts : ObjectSchema → List (String × Json) → Bool
  | ⟨properties, required⟩, fields =>
    required.all (fun name => (Dictionary.find? fields name).isSome) &&
      propertiesAccept properties fields

/-- Every property accepts its field, if there is one. -/
def propertiesAccept : List (String × Schema) → List (String × Json) → Bool
  | [], _ => true
  | (name, schema) :: rest, fields =>
    (Dictionary.find? fields name).all schema.accepts && propertiesAccept rest fields

/-- One of several schemas accepts a value. -/
def someAccepts : List Schema → Json → Bool
  | [], _ => false
  | schema :: rest, v => schema.accepts v || someAccepts rest v

end

/-- One of several schemas accepts a value. -/
theorem someAccepts_iff {members : List Schema} {v : Json} :
    someAccepts members v = true ↔ ∃ member ∈ members, member.accepts v = true := by
  induction members with
  | nil => simp [someAccepts]
  | cons member rest ih => simp [someAccepts, ih]

/-- Every property accepts its field. -/
theorem propertiesAccept_iff {properties : List (String × Schema)} {fields : List (String × Json)} :
    propertiesAccept properties fields = true ↔
      ∀ p ∈ properties, ∀ v, Dictionary.find? fields p.1 = some v → p.2.accepts v = true := by
  induction properties with
  | nil => simp [propertiesAccept]
  | cons p rest ih => simp [propertiesAccept, ih, Option.all_eq_true]

namespace ObjectSchema

/-- An object is accepted if the required fields are there and every property accepts its field. -/
theorem accepts_iff {shape : ObjectSchema} {fields : List (String × Json)} :
    shape.accepts fields = true ↔
      (∀ name ∈ shape.required, (Dictionary.find? fields name).isSome) ∧
      ∀ p ∈ shape.properties, ∀ v, Dictionary.find? fields p.1 = some v → p.2.accepts v = true := by
  obtain ⟨properties, required⟩ := shape
  rw [accepts, Bool.and_eq_true, List.all_eq_true, propertiesAccept_iff]

end ObjectSchema

namespace Schema

/-- The schema of one literal accepts what is that literal. -/
theorem accepts_literal {value : Literal} {v : Json} (h : value.holds v = true) :
    (Schema.literal value).accepts v = true := by
  have hkind : value.kind.holds v = true := by
    cases v <;> cases value <;> simp_all [Literal.holds, Json.literal?, Literal.same, Literal.kind,
      Kind.holds]
  simp [Schema.literal, accepts, h, hkind]

/-- An object schema accepts objects. -/
theorem accepts_object {shape : ObjectSchema} {v : Json} :
    (Schema.object shape).accepts v = true ↔
      ∃ fields, v = .object fields ∧ shape.accepts fields = true := by
  cases v <;> simp [accepts]

/-- A list schema accepts lists of what its items accept. -/
theorem accepts_array {items : Schema} {values : List Json} :
    (Schema.array items).accepts (.array values) = true ↔
      ∀ v ∈ values, items.accepts v = true := by
  rw [accepts, List.all_eq_true]

end Schema

end ElementCatalog
