import ElementCatalog.Dictionary

/-!
# Schemas — the shapes of values

A schema is a finite tree that never refers back to the declaration it was read from. Objects list
their properties in order, together with the names that must be present.
-/

namespace ElementCatalog

/-- The primitive kinds of values. -/
inductive Kind where
  | string
  | number
  | boolean
  | null
deriving DecidableEq, Repr

/-- A literal value of an enumeration. -/
inductive Literal where
  | string (text : String)
  | number (value : Float)
  | boolean (value : Bool)
deriving Repr

namespace Literal

/-- The kind of a literal. -/
def kind : Literal → Kind
  | .string _ => .string
  | .number _ => .number
  | .boolean _ => .boolean

/-- Two literals are equal as values: numbers compare as numbers, so the two zeros are equal and
    an undefined number equals nothing. -/
def same : Literal → Literal → Bool
  | .string a, .string b => a == b
  | .number a, .number b => a == b
  | .boolean a, .boolean b => a == b
  | _, _ => false

end Literal

mutual

/-- The shape of a value. A primitive may be a string that holds a date and time. -/
inductive Schema where
  | primitive (kind : Kind) (dateTime : Bool)
  | multiType (kinds : List Kind)
  | enumeration (kind : Kind) (values : List Literal)
  | object (shape : ObjectSchema)
  | array (items : Schema)
  | alternatives (members : List Schema)
  | unconstrained

/-- The properties of an object, in order, and the names that must be present. -/
structure ObjectSchema where
  properties : List (String × Schema)
  required : List String

end

instance : Inhabited Schema := ⟨.unconstrained⟩

namespace ObjectSchema

/-- The object without properties. -/
def empty : ObjectSchema :=
  ⟨[], []⟩

/-- Write a property. The name is required exactly if this write says so; it then moves to the end
    of the required names. -/
def insert (object : ObjectSchema) (name : String) (schema : Schema) (required : Bool) :
    ObjectSchema :=
  let others := object.required.filter (· != name)
  { properties := Dictionary.set object.properties name schema
    required := if required then others ++ [name] else others }

/-- Write the properties of another object over this one. -/
def merge (object other : ObjectSchema) : ObjectSchema :=
  other.properties.foldl
    (fun merged (name, schema) => merged.insert name schema (other.required.contains name)) object

/-- The properties whose names satisfy a test, each as required as it was. -/
def restrict (object : ObjectSchema) (keep : String → Bool) : ObjectSchema :=
  object.properties.foldl
    (fun kept (name, schema) =>
      if keep name then kept.insert name schema (object.required.contains name) else kept) empty

end ObjectSchema

namespace Schema

/-- Any string. -/
def string : Schema := .primitive .string false

/-- Any number. -/
def number : Schema := .primitive .number false

/-- A truth value. -/
def boolean : Schema := .primitive .boolean false

/-- The null value. -/
def null : Schema := .primitive .null false

/-- A string that holds a date and time. -/
def dateTime : Schema := .primitive .string true

/-- Any object. -/
def anyObject : Schema := .object .empty

/-- Exactly one literal value. -/
def literal (value : Literal) : Schema := .enumeration value.kind [value]

end Schema

/-! ## Equality of schemas -/

/-- Two lists of literals are equal, place by place. -/
def sameLiterals : List Literal → List Literal → Bool
  | [], [] => true
  | a :: as, b :: bs => a.same b && sameLiterals as bs
  | _, _ => false

mutual

/-- Two schemas are equal. The order of an object's properties does not matter, every other order
    does. -/
def Schema.same : Schema → Schema → Bool
  | .primitive kind dateTime, other =>
    match other with
    | .primitive kind' dateTime' => kind == kind' && dateTime == dateTime'
    | _ => false
  | .multiType kinds, other =>
    match other with
    | .multiType kinds' => kinds == kinds'
    | _ => false
  | .enumeration kind values, other =>
    match other with
    | .enumeration kind' values' => kind == kind' && sameLiterals values values'
    | _ => false
  | .object shape, other =>
    match other with
    | .object shape' => ObjectSchema.same shape shape'
    | _ => false
  | .array items, other =>
    match other with
    | .array items' => Schema.same items items'
    | _ => false
  | .alternatives members, other =>
    match other with
    | .alternatives members' => sameMembers members members'
    | _ => false
  | .unconstrained, other =>
    match other with
    | .unconstrained => true
    | _ => false
termination_by structural a => a

/-- Two objects have the same properties and the same list of required names. -/
def ObjectSchema.same : ObjectSchema → ObjectSchema → Bool
  | ⟨properties, required⟩, other =>
    properties.length == other.properties.length &&
      samePropertiesIn other.properties properties && required == other.required
termination_by structural a => a

/-- Every listed property is in the other object with an equal schema. -/
def samePropertiesIn (others : List (String × Schema)) : List (String × Schema) → Bool
  | [] => true
  | (name, schema) :: rest =>
    (match Dictionary.find? others name with
      | some schema' => Schema.same schema schema'
      | none => false) && samePropertiesIn others rest
termination_by structural properties => properties

/-- Two lists of schemas are equal, place by place. -/
def sameMembers : List Schema → List Schema → Bool
  | [], [] => true
  | a :: as, b :: bs => Schema.same a b && sameMembers as bs
  | _, _ => false
termination_by structural as => as

end

end ElementCatalog
