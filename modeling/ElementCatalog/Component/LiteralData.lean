import ElementCatalog.Component.Inference
import ElementCatalog.Source.Evaluation

/-!
# Literal data — the expressions that are data written out

Strings, numbers, truth values and null, and templates, lists and objects of such data.  The elements
of a list have one schema.  Parentheses and notes on types may stand around any of them.
-/

namespace ElementCatalog

/-- An object stands somewhere in a schema. -/
inductive ObjectSchema.OccursIn (shape : ObjectSchema) : Schema → Prop where
  | self : OccursIn shape (.object shape)
  | property {outer : ObjectSchema} {p : String × Schema} (hp : p ∈ outer.properties)
    (h : OccursIn shape p.2) : OccursIn shape (.object outer)
  | items {items : Schema} (h : OccursIn shape items) : OccursIn shape (.array items)
  | member {members : List Schema} {m : Schema} (hm : m ∈ members) (h : OccursIn shape m) :
    OccursIn shape (.alternatives members)

namespace Source

section LiteralData

variable (read : TypeExpr → Schema)

/-- Two expressions have one schema. -/
def Expr.InferAlike (e e' : Expr) : Prop :=
  ∃ schema schema', inferred? read e = some schema ∧ inferred? read e' = some schema' ∧
    schema.same schema' = true

/-- An expression is literal data. -/
inductive Expr.IsLiteralData : Expr → Prop where
  | string (literal : StringLiteral) : IsLiteralData (.string literal)
  | number {x : Float} (h : Decimal.isFinite x = true) : IsLiteralData (.number x)
  | minus {x : Float} (h : Decimal.isFinite x = true) : IsLiteralData (.unary .minus (.number x))
  | plus {x : Float} (h : Decimal.isFinite x = true) : IsLiteralData (.unary .plus (.number x))
  | boolean (value : Bool) : IsLiteralData (.boolean value)
  | null : IsLiteralData .null
  | template {pieces : List StringLiteral} {substitutions : List Expr}
    (hpieces : pieces.length = substitutions.length + 1)
    (h : ∀ e ∈ substitutions, IsLiteralData e) :
    IsLiteralData (.template (pieces.map some) substitutions)
  | array {elements : List Expr} (h : ∀ e ∈ elements, IsLiteralData e)
    (halike : elements.Pairwise (Expr.InferAlike read)) : IsLiteralData (.array elements)
  | object {entries : List (Key × Expr)}
    (hkeys : ∀ entry ∈ entries, ∃ name, entry.1.Names [] name)
    (h : ∀ entry ∈ entries, IsLiteralData entry.2) :
    IsLiteralData (.object (entries.map fun entry => .keyValue entry.1 entry.2))
  | paren {inner : Expr} (h : IsLiteralData inner) : IsLiteralData (.paren inner)
  | nonNull {inner : Expr} (h : IsLiteralData inner) : IsLiteralData (.nonNull inner)
  | asConst {inner : Expr} (h : IsLiteralData inner) : IsLiteralData (.asConst inner)
  | satisfies {inner : Expr} {type : TypeUse} (h : IsLiteralData inner) :
    IsLiteralData (.satisfies inner type)

end LiteralData

end Source

end ElementCatalog
