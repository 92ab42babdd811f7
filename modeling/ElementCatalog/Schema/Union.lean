import ElementCatalog.Schema.Basic

/-!
# Unions — one schema for several

The schemas of a union's members become one schema: enumerations of one kind merge, bare primitives
become a multi-type, and everything else is listed as alternatives. Nested alternatives are opened
one level, and equal members count once.
-/

namespace ElementCatalog

namespace Schema

/-- Add a schema to a list that does not hold an equal one. -/
def addNew (schemas : List Schema) (schema : Schema) : List Schema :=
  if schemas.any (·.same schema) then schemas else schemas ++ [schema]

/-- The members of a union with nested alternatives opened and repetitions dropped; `none` if one of
    them allows everything. -/
def distinctMembers? : (found : List Schema) → List Schema → Option (List Schema)
  | found, [] => some found
  | found, .alternatives nested :: rest => distinctMembers? (nested.foldl addNew found) rest
  | _, .unconstrained :: _ => none
  | found, member :: rest => distinctMembers? (addNew found member) rest

/-- The literals of an enumeration of the given kind. -/
def literalsOf? (kind : Kind) : Schema → Option (List Literal)
  | .enumeration kind' values => if kind' = kind then some values else none
  | _ => none

/-- The kinds of a primitive without a format or of a multi-type. -/
def bareKinds? : Schema → Option (List Kind)
  | .primitive kind false => some [kind]
  | .multiType kinds => some kinds
  | _ => none

/-- Add a literal to a list that does not hold an equal one. -/
def addLiteral (values : List Literal) (value : Literal) : List Literal :=
  if values.any (·.same value) then values else values ++ [value]

/-- Add a kind to a list that does not hold it. -/
def addKind (kinds : List Kind) (kind : Kind) : List Kind :=
  if kinds.contains kind then kinds else kinds ++ [kind]

/-- One enumeration for several, if all members are enumerations of the first one's kind. -/
def mergeEnumerations? (members : List Schema) : Option Schema :=
  match members with
  | .enumeration kind _ :: _ =>
    (members.mapM (literalsOf? kind)).map fun lists =>
      .enumeration kind (lists.flatten.foldl addLiteral [])
  | _ => none

/-- One multi-type for several, if all members are bare primitives or multi-types. -/
def mergeKinds? (members : List Schema) : Option Schema :=
  (members.mapM bareKinds?).map fun lists =>
    match lists.flatten.foldl addKind [] with
    | [kind] => .primitive kind false
    | kinds => .multiType kinds

/-- The schema of a union, from the schemas of its members. Without members nothing but null is
    left. -/
def union (members : List Schema) : Schema :=
  match distinctMembers? [] members with
  | none => .unconstrained
  | some [] => .null
  | some [member] => member
  | some distinct =>
    match mergeEnumerations? distinct with
    | some merged => merged
    | none =>
      match mergeKinds? distinct with
      | some merged => merged
      | none => .alternatives distinct

end Schema

end ElementCatalog
