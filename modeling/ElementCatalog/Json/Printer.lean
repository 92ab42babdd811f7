import ElementCatalog.Decimal.Text
import ElementCatalog.Json.Value

/-!
# JSON text — writing values

The compact form has no blanks at all; the laid-out form puts every item on a line of its own,
indented by two columns a level. Both write the same tokens.
-/

namespace ElementCatalog.Json

/-- The escape of a character inside a JSON string: only the quote, the backslash and the control
    characters below U+0020 have one. -/
def escape (c : Char) : List Char :=
  let n := c.toNat
  if n == 0x22 then ['\\', c]
  else if n == 0x5C then ['\\', '\\']
  else if n == 8 then ['\\', 'b']
  else if n == 9 then ['\\', 't']
  else if n == 10 then ['\\', 'n']
  else if n == 12 then ['\\', 'f']
  else if n == 13 then ['\\', 'r']
  else if n < 32 then
    ['\\', 'u', '0', '0', Nat.digitChar (n / 16), Nat.digitChar (n % 16)]
  else [c]

/-- A text as a JSON string. -/
def quoted (s : String) : String :=
  "\"" ++ String.ofList (s.toList.flatMap escape) ++ "\""

/-- A double as a JSON number. Values that are no numbers are written as `null`. -/
def floatText (x : Float) : String :=
  match Decimal.Binary.ofFloat x with
  | .finite negative mantissa exponent => Decimal.interchange negative mantissa exponent
  | _ => "null"

mutual

/-- The compact text of a value. -/
def compact : Json → String
  | .null => "null"
  | .bool b => if b then "true" else "false"
  | .int n => toString n
  | .float x => floatText x
  | .string s => quoted s
  | .array items => "[" ++ String.intercalate "," (compactItems items) ++ "]"
  | .object fields => "\x7b" ++ String.intercalate "," (compactFields fields) ++ "\x7d"

/-- The compact texts of the items of an array. -/
def compactItems : List Json → List String
  | [] => []
  | item :: items => compact item :: compactItems items

/-- The compact texts of the fields of an object. -/
def compactFields : List (String × Json) → List String
  | [] => []
  | (name, value) :: fields => (quoted name ++ ":" ++ compact value) :: compactFields fields

end

/-- Line break and indentation of a level. -/
def lineBreak (level : Nat) : String :=
  "\n" ++ String.ofList (List.replicate (2 * level) ' ')

mutual

/-- The laid-out text of a value that stands at a level of indentation. -/
def prettyAt (level : Nat) : Json → String
  | .array (item :: items) =>
    "[" ++ String.intercalate "," (prettyItems (level + 1) (item :: items)) ++ lineBreak level ++
      "]"
  | .object (field :: fields) =>
    "\x7b" ++ String.intercalate "," (prettyFields (level + 1) (field :: fields)) ++
      lineBreak level ++ "\x7d"
  | value => compact value

/-- The laid-out texts of the items of an array, each with the line break before it. -/
def prettyItems (level : Nat) : List Json → List String
  | [] => []
  | item :: items => (lineBreak level ++ prettyAt level item) :: prettyItems level items

/-- The laid-out texts of the fields of an object, each with the line break before it. -/
def prettyFields (level : Nat) : List (String × Json) → List String
  | [] => []
  | (name, value) :: fields =>
    (lineBreak level ++ quoted name ++ ": " ++ prettyAt level value) :: prettyFields level fields

end

/-- The laid-out text of a value. -/
def pretty (value : Json) : String :=
  prettyAt 0 value

end ElementCatalog.Json
