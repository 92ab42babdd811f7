import ElementCatalog.Schema.Union
import ElementCatalog.Source.Literal

/-!
# Enumerations — the values of their members

A member has the value of its initializer if that is a literal. Without an initializer it has the
number after the last number that is known. A member whose initializer is no literal is passed over.
-/

namespace ElementCatalog.Types

open Source (EnumMember Expr)

/-- The literal that an initializer gives. -/
def initialLiteral? (init : Expr) : Option Literal :=
  match init.string? with
  | some text => some (.string text)
  | none =>
    match init.number? with
    | some value => some (.number value)
    | none =>
      match init with
      | .string value => some (.string value.text)
      | _ => none

/-- The number after a value, where a text leaves the number as it is. -/
def nextNumber (next : Float) : Literal → Float
  | .number value => value + 1.0
  | _ => next

/-- The names and values of members, from the number that the first one has without an
    initializer. -/
def memberValuesFrom (next : Float) : List EnumMember → List (String × Literal)
  | [] => []
  | member :: rest =>
    let value :=
      match member.init with
      | none => some (.number next)
      | some init => initialLiteral? init
    match value with
    | some value => (member.name, value) :: memberValuesFrom (nextNumber next value) rest
    | none => memberValuesFrom next rest

/-- The names and values of the members of an enumeration. -/
def memberValues (members : List EnumMember) : List (String × Literal) :=
  memberValuesFrom 0.0 members

/-- The value of a member. -/
def memberValue? (members : List EnumMember) (name : String) : Option Literal :=
  Dictionary.find? (memberValues members) name

/-- The schema of an enumeration: one of its values. -/
def enumerationSchema (members : List EnumMember) : Schema :=
  match memberValues members with
  | [] => .unconstrained
  | values => Schema.union (values.map fun (_, value) => Schema.literal value)

end ElementCatalog.Types
