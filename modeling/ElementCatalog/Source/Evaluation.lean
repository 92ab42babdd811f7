import ElementCatalog.Decimal.Binary64
import ElementCatalog.Dictionary
import ElementCatalog.Json.Value
import ElementCatalog.Source.Tree
import Mathlib.Algebra.Field.Rat

/-!
# Evaluation — the values that literal expressions have

A literal expression evaluates to a JSON value.  How a value is shown inside a template is a relation
that is given, since it is a matter of every kind of value and not of templates.  Half of a surrogate
pair is no character: where a string holds one, any text may stand for the string.
-/

namespace ElementCatalog

/-! ## Numbers -/

/-- The number that a finite double is. -/
def Decimal.Binary.value? : Binary → Option ℚ
  | .finite negative mantissa exponent =>
    some ((if negative then -1 else 1) * mantissa * 2 ^ exponent)
  | _ => none

namespace Json

/-- A JSON number stands for a double: it is this double, or the integer that this double is. -/
inductive StandsFor : Json → Float → Prop where
  | float (x : Float) : StandsFor (.float x) x
  | int {n : Int} {x : Float} (h : (Decimal.Binary.ofFloat x).value? = some (n : ℚ)) :
    StandsFor (.int n) x

/-- Two values are the same, or they are spellings of one number. -/
def SameValue (v w : Json) : Prop :=
  v = w ∨ ∃ x, v.StandsFor x ∧ w.StandsFor x

end Json

namespace Source

/-! ## Texts and names -/

/-- A text stands for a string literal. -/
def StringLiteral.Denotes (literal : StringLiteral) (text : String) : Prop :=
  literal.wellFormed = true → text = literal.text

/-- The key that sets the prototype of an object, and no field of it. -/
def prototypeKey : String := "__proto__"

/-- A key names a field.  A string with half of a surrogate pair is told apart from every name that
    is taken. -/
inductive Key.Names (taken : List String) : Key → String → Prop where
  | ident {start : Position} {name : String} (h : name ≠ prototypeKey) :
    Names taken (.ident start name) name
  | string {start : Position} {literal : StringLiteral} (hwell : literal.wellFormed = true)
    (h : literal.text ≠ prototypeKey) : Names taken (.string start literal) literal.text
  | broken {start : Position} {literal : StringLiteral} {name : String}
    (hbroken : literal.wellFormed = false) (hnew : name ∉ taken) :
    Names taken (.string start literal) name

/-- The name that a key spells out. -/
def Key.spelled? : Key → Option String
  | .ident _ name => some name
  | .string _ literal => literal.value?
  | _ => none

/-- The names that the keys of an object literal spell out. -/
def spelledNames (properties : List Property) : List String :=
  properties.filterMap fun
    | .keyValue key _ => key.spelled?
    | _ => none

/-! ## Values -/

section Evaluation

variable (shows : Json → String → Prop)

mutual

/-- An expression evaluates to a value. -/
inductive Evaluates : Expr → Json → Prop where
  | string {literal : StringLiteral} {text : String} (h : literal.Denotes text) :
    Evaluates (.string literal) (.string text)
  | number {x : Float} {v : Json} (h : v.StandsFor x) : Evaluates (.number x) v
  | minus {x : Float} {v : Json} (h : v.StandsFor (-x)) : Evaluates (.unary .minus (.number x)) v
  | plus {x : Float} {v : Json} (h : v.StandsFor x) : Evaluates (.unary .plus (.number x)) v
  | boolean (value : Bool) : Evaluates (.boolean value) (.bool value)
  | null : Evaluates .null .null
  | template {pieces : List (Option StringLiteral)} {substitutions : List Expr} {text : String}
    (h : Fills pieces substitutions text) : Evaluates (.template pieces substitutions) (.string text)
  | array {elements : List Expr} {values : List Json} (h : EvaluateAll elements values) :
    Evaluates (.array elements) (.array values)
  /-- A field has the value that is written last under its name. -/
  | object {properties : List Property} {written fields : List (String × Json)}
    (h : WriteAll (spelledNames properties) properties written)
    (hnames : (Dictionary.names fields).Nodup)
    (hlast : ∀ name, Dictionary.find? fields name = Dictionary.find? written.reverse name) :
    Evaluates (.object properties) (.object fields)
  | paren {inner : Expr} {v : Json} (h : Evaluates inner v) : Evaluates (.paren inner) v
  | nonNull {inner : Expr} {v : Json} (h : Evaluates inner v) : Evaluates (.nonNull inner) v
  | asConst {inner : Expr} {v : Json} (h : Evaluates inner v) : Evaluates (.asConst inner) v
  | satisfies {inner : Expr} {type : TypeUse} {v : Json} (h : Evaluates inner v) :
    Evaluates (.satisfies inner type) v

/-- Elements evaluate to values, one by one. -/
inductive EvaluateAll : List Expr → List Json → Prop where
  | nil : EvaluateAll [] []
  | cons {e : Expr} {v : Json} {elements : List Expr} {values : List Json}
    (h : Evaluates e v) (hrest : EvaluateAll elements values) :
    EvaluateAll (e :: elements) (v :: values)

/-- The entries of an object literal write values under names, one by one. -/
inductive WriteAll : List String → List Property → List (String × Json) → Prop where
  | nil {taken : List String} : WriteAll taken [] []
  | keyValue {taken : List String} {key : Key} {name : String} {value : Expr} {v : Json}
    {rest : List Property} {written : List (String × Json)} (hkey : key.Names taken name)
    (h : Evaluates value v) (hrest : WriteAll taken rest written) :
    WriteAll taken (.keyValue key value :: rest) ((name, v) :: written)

/-- A template is filled: its pieces stand around the texts that its substitutions are shown as. -/
inductive Fills : List (Option StringLiteral) → List Expr → String → Prop where
  | last {piece : StringLiteral} {text : String} (h : piece.Denotes text) :
    Fills [some piece] [] text
  | cons {piece : StringLiteral} {pieces : List (Option StringLiteral)} {e : Expr}
    {substitutions : List Expr} {v : Json} {text shown rest : String} (htext : piece.Denotes text)
    (h : Evaluates e v) (hshown : shows v shown) (hrest : Fills pieces substitutions rest) :
    Fills (some piece :: pieces) (e :: substitutions) (text ++ shown ++ rest)

end

end Evaluation

end Source

end ElementCatalog
