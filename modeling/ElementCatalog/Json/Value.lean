/-!
# JSON values — data as JSON texts carry it

Objects keep their fields in order. Whole numbers that fit 64 bits are told apart from all other
numbers, because they are written differently.
-/

namespace ElementCatalog

/-- A JSON value. -/
inductive Json where
  | null
  | bool (value : Bool)
  | int (value : Int)
  | float (value : Float)
  | string (value : String)
  | array (items : List Json)
  | object (fields : List (String × Json))
deriving Repr, Inhabited

namespace Json

/-- A field that is written only if it has a value. -/
def optionalField (name : String) (value : Option Json) : List (String × Json) :=
  match value with
  | some v => [(name, v)]
  | none => []

/-- A flag that is written only if it is set. -/
def flagField (name : String) (flag : Bool) : List (String × Json) :=
  if flag then [(name, .bool true)] else []

/-- A list of texts. -/
def strings (values : List String) : Json :=
  .array (values.map .string)

end Json

end ElementCatalog
