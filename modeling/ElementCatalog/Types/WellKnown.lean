import ElementCatalog.Schema.Basic
import ElementCatalog.Source.TypeTree

/-!
# Well-known types — names with a meaning of their own

Some type names mean the same in every file: containers, dates, boxed primitives and the types that
change other types. What such a name makes of its arguments is a rule.
-/

namespace ElementCatalog.Types

open Source (TypeExpr)

/-- What a well-known name makes of its arguments. -/
inductive WellKnown where
  | fixed (schema : Schema)
  | listOfFirst
  | first
  | withNothingRequired
  | withAllRequired
  | pick
  | omit

/-- The rule of a well-known name. -/
def wellKnown? (name : String) : Option WellKnown :=
  if ["Array", "ReadonlyArray", "Set", "ReadonlySet", "Iterable"].contains name then
    some .listOfFirst
  else if name = "Date" then some (.fixed .dateTime)
  else if ["Record", "Map", "ReadonlyMap", "WeakMap", "Object"].contains name then
    some (.fixed .anyObject)
  else if name = "String" then some (.fixed .string)
  else if name = "Number" then some (.fixed .number)
  else if name = "Boolean" then some (.fixed .boolean)
  else if ["Promise", "PromiseLike", "Function"].contains name then some (.fixed .unconstrained)
  else if name = "Readonly" ∨ name = "NonNullable" then some .first
  else if name = "Partial" then some .withNothingRequired
  else if name = "Required" then some .withAllRequired
  else if name = "Pick" then some .pick
  else if name = "Omit" then some .omit
  else none

/-- Change an object; every other schema stays. -/
def onObject (change : ObjectSchema → ObjectSchema) : Schema → Schema
  | .object shape => .object (change shape)
  | schema => schema

/-- Apply a rule to the schema of the first argument and the keys that the second one lists. -/
def WellKnown.apply (first : Schema) (keys : List String) : WellKnown → Schema
  | .fixed schema => schema
  | .listOfFirst => .array first
  | .first => first
  | .withNothingRequired => onObject (fun o => { o with required := [] }) first
  | .withAllRequired =>
    onObject (fun o => { o with required := Dictionary.names o.properties }) first
  | .pick => onObject (fun o => o.restrict keys.contains) first
  | .omit => onObject (fun o => o.restrict fun name => !keys.contains name) first

mutual

/-- The keys that a type lists: a string literal, or a union of such. -/
def literalKeys : TypeExpr → List String
  | .literal (.string value) => value.value?.toList
  | .union members => literalKeysOfAll members
  | .paren type => literalKeys type
  | _ => []

/-- The keys that several types list. -/
def literalKeysOfAll : List TypeExpr → List String
  | [] => []
  | type :: rest => literalKeys type ++ literalKeysOfAll rest

end

/-- The keys that the second of some type arguments lists. -/
def keysArgument : List TypeExpr → List String
  | _ :: keys :: _ => literalKeys keys
  | _ => []

end ElementCatalog.Types
