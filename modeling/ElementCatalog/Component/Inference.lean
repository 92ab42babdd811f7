import ElementCatalog.Schema.Json
import ElementCatalog.Source.Literal

/-!
# Inference — what literal values say about types

The schema of a literal expression follows its structure; names and calls say nothing. A primitive
literal also is a default value.
-/

namespace ElementCatalog

open Source (Expr Property TypeExpr)

/-- The value of a primitive literal as JSON. Numbers that are not finite have none. -/
def defaultValue? (e : Expr) : Option Json :=
  match e.string? with
  | some text => some (.string text)
  | none =>
    match e.number? with
    | some value => if Decimal.isFinite value then some (.ofNumber value) else none
    | none =>
      match e.bool? with
      | some value => some (.bool value)
      | none =>
        match e.unwrapped with
        | .null => some .null
        | _ => none

mutual

/-- The schema that the value of an expression has, if the expression is a literal. `read` gives the
    schema of a type that is asserted. -/
def inferred? (read : TypeExpr → Schema) : Expr → Option Schema
  | .asType _ type => some (read type.type)
  | .satisfies inner _ => inferred? read inner
  | .asConst inner => inferred? read inner
  | .nonNull inner => inferred? read inner
  | .paren inner => inferred? read inner
  | .string _ => some .string
  | .number _ => some .number
  | .bigint => some .number
  | .boolean _ => some .boolean
  | .null => some .unconstrained
  | .template _ _ => some .string
  | .unary .minus (.number _) => some .number
  | .unary .plus (.number _) => some .number
  | .object properties =>
    some (.object ⟨inferredEntries read [] properties, []⟩)
  | .array elements => some (.array (inferredItems read elements))
  | _ => none

/-- The properties that an object literal has; the last value of a name counts. -/
def inferredEntries (read : TypeExpr → Schema) (entries : Dictionary Schema) :
    List Property → Dictionary Schema
  | [] => entries
  | property :: rest =>
    inferredEntries read (inferredEntry read entries property) rest

/-- The properties after one more entry of an object literal. -/
def inferredEntry (read : TypeExpr → Schema) (entries : Dictionary Schema) :
    Property → Dictionary Schema
  | .keyValue key value =>
    match key.name? with
    | some name => Dictionary.set entries name ((inferred? read value).getD .unconstrained)
    | none => entries
  | .shorthand name => Dictionary.set entries name .unconstrained
  | .withDefault _ _ => entries
  | .method _ _ => entries
  | .accessor _ _ _ _ => entries
  | .spread _ => entries

/-- The schema of the items of a list: that of the first one that stands for itself. -/
def inferredItems (read : TypeExpr → Schema) : List Expr → Schema
  | [] => .unconstrained
  | .spread _ :: rest => inferredItems read rest
  | .hole :: rest => inferredItems read rest
  | element :: _ => (inferred? read element).getD .unconstrained

end

end ElementCatalog
