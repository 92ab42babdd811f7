import ElementCatalog.Decimal.Binary64
import ElementCatalog.Json.Value
import ElementCatalog.Schema.Basic

/-!
# Schemas as JSON — the form that document builders read

A schema is written in the vocabulary of JSON Schema. Empty parts of an object are left out, and the
schema that allows everything is the empty object.
-/

namespace ElementCatalog

/-- A number as JSON: whole numbers below nine quadrillion are written without a fraction. -/
def Json.ofNumber (x : Float) : Json :=
  match Decimal.smallInteger? x with
  | some n => .int n
  | none => .float x

/-- The name of a kind. -/
def Kind.name : Kind → String
  | .string => "string"
  | .number => "number"
  | .boolean => "boolean"
  | .null => "null"

/-- A literal as JSON. -/
def Literal.toJson : Literal → Json
  | .string text => .string text
  | .number value => .ofNumber value
  | .boolean value => .bool value

mutual

/-- A schema as JSON. -/
def Schema.toJson : Schema → Json
  | .primitive kind dateTime =>
    .object (("type", .string kind.name) ::
      (if dateTime then [("format", .string "date-time")] else []))
  | .multiType kinds => .object [("type", .array (kinds.map fun kind => .string kind.name))]
  | .enumeration kind values =>
    .object [("type", .string kind.name), ("enum", .array (values.map Literal.toJson))]
  | .object shape => .object (("type", .string "object") :: shape.toFields)
  | .array items => .object [("type", .string "array"), ("items", items.toJson)]
  | .alternatives members => .object [("anyOf", .array (Schema.listToJson members))]
  | .unconstrained => .object []

/-- The parts of an object schema that are not empty. -/
def ObjectSchema.toFields : ObjectSchema → List (String × Json)
  | ⟨properties, required⟩ =>
    (if properties.isEmpty then []
      else [("properties", .object (Schema.propertiesToJson properties))]) ++
    (if required.isEmpty then [] else [("required", Json.strings required)])

/-- Schemas as JSON, one by one. -/
def Schema.listToJson : List Schema → List Json
  | [] => []
  | schema :: rest => schema.toJson :: Schema.listToJson rest

/-- Properties as JSON fields, one by one. -/
def Schema.propertiesToJson : List (String × Schema) → List (String × Json)
  | [] => []
  | (name, schema) :: rest => (name, schema.toJson) :: Schema.propertiesToJson rest

end

end ElementCatalog
