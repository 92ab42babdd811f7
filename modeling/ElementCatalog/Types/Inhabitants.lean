import ElementCatalog.Schema.Acceptance
import ElementCatalog.Types.Scope

/-!
# Inhabitants — the JSON values that a type describes

A type is read for what it says about data, without its schema: which JSON values inhabit it. The
rules are those of the types that describe data alone, with generic, inherited and recursive
declarations; a type of any other form has no inhabitants of its own.

JSON has no value that is missing. Where `undefined` or `void` stands for itself it is written as
`null`; among the other members of a union it says that a value may be absent, and adds none.
-/

namespace ElementCatalog

open Source (TypeExpr TypeMember TypeParam)
open ElementCatalog.Types

/-- What a type parameter stands for: JSON values, or a type that is written in a file and may use
    type parameters itself. -/
inductive Meaning where
  | values (holds : Json → Prop)
  | written (file : SourceFile) (params : List (String × Meaning)) (type : TypeExpr)

/-- The type parameters of a scope with the values that each of them holds. -/
def Scope.meanings (scope : Scope) (holds : String → Json → Prop) : Dictionary Meaning :=
  scope.bindings.map fun entry => (entry.1, .values (holds entry.1))

/-- A property signature whose name is not computed. -/
structure PropertySignature where
  name : String
  optional : Bool
  type : Option TypeExpr

/-- The name of a key that is not computed. -/
def plainName? : Source.MemberKey → Option String
  | .ident name computed => if computed then none else some name
  | .literal value => value

/-- The property signature that a member of an object type is. -/
def PropertySignature.ofMember? : TypeMember → Option PropertySignature
  | .property _ key optional type => (plainName? key).map fun name => ⟨name, optional, type⟩
  | _ => none

/-- What a parameter without an argument stands for: its default, or any value. -/
def defaultMeaning (file : SourceFile) (meanings : Dictionary Meaning) : Option TypeExpr → Meaning
  | some type => .written file meanings type
  | none => .values fun _ => True

/-- What the parameters of a declaration stand for: their arguments, or their defaults, in which the
    parameters before them may occur. -/
def paramMeanings (file : SourceFile) :
    List TypeParam → (args : List Meaning) → Dictionary Meaning → Dictionary Meaning
  | [], _, meanings => meanings
  | param :: params, args, meanings =>
    let meaning :=
      match args with
      | arg :: _ => arg
      | [] => defaultMeaning file meanings param.default
    paramMeanings file params args.tail (Dictionary.set meanings param.name meaning)

/-- A JSON value inhabits a type that is written in a file, where type parameters have meanings. -/
inductive Inhabits (w : Workspace) : SourceFile → Dictionary Meaning → TypeExpr → Json → Prop where
  -- Built-in types and literals.
  | string {file meanings} (text : String) :
    Inhabits w file meanings (.keyword .string) (.string text)
  | integer {file meanings} (n : Int) : Inhabits w file meanings (.keyword .number) (.int n)
  | number {file meanings} (x : Float) : Inhabits w file meanings (.keyword .number) (.float x)
  | boolean {file meanings} (b : Bool) : Inhabits w file meanings (.keyword .boolean) (.bool b)
  | null {file meanings} : Inhabits w file meanings (.keyword .null) .null
  | undefined {file meanings} : Inhabits w file meanings (.keyword .undefined) .null
  | void {file meanings} : Inhabits w file meanings (.keyword .void) .null
  /-- Any value is of the types without a name of their own, `any` and `unknown`. -/
  | any {file meanings} (v : Json) : Inhabits w file meanings (.keyword .other) v
  | stringLiteral {file meanings value text} (h : value.value? = some text) :
    Inhabits w file meanings (.literal (.string value)) (.string text)
  /-- Numbers are compared as numbers, however they are written. -/
  | numberLiteral {file meanings x v} (h : (Literal.number x).holds v = true) :
    Inhabits w file meanings (.literal (.number x)) v
  | booleanLiteral {file meanings} (b : Bool) :
    Inhabits w file meanings (.literal (.boolean b)) (.bool b)
  -- Lists.
  | array {file meanings type items} (h : ∀ item ∈ items, Inhabits w file meanings type item) :
    Inhabits w file meanings (.array type) (.array items)
  | arrayReference {file meanings name type rest items} (hname : name ∈ ["Array", "ReadonlyArray"])
    (hunbound : Dictionary.find? meanings name = none)
    (h : ∀ item ∈ items, Inhabits w file meanings type item) :
    Inhabits w file meanings (.reference (.ident name) (type :: rest)) (.array items)
  /-- Only optional elements may be missing at the end of a tuple. -/
  | tuple {file meanings elements items} (hlength : items.length ≤ elements.length)
    (hmissing : ∀ element ∈ elements.drop items.length, ∃ type, element = .optional type)
    (h : ∀ (i : Nat) element item, elements[i]? = some element → items[i]? = some item →
      Inhabits w file meanings element item) :
    Inhabits w file meanings (.tuple elements) (.array items)
  | optional {file meanings type v} (h : Inhabits w file meanings type v) :
    Inhabits w file meanings (.optional type) v
  -- Combinations.
  | union {file meanings members member v} (hmember : member ∈ members)
    (hdefined : isUndefined member = false) (h : Inhabits w file meanings member v) :
    Inhabits w file meanings (.union members) v
  | missingUnion {file meanings members} (h : ∀ member ∈ members, isUndefined member = true) :
    Inhabits w file meanings (.union members) .null
  | intersection {file meanings members v} (hmembers : members ≠ [])
    (h : ∀ member ∈ members, Inhabits w file meanings member v) :
    Inhabits w file meanings (.intersection members) v
  | paren {file meanings type v} (h : Inhabits w file meanings type v) :
    Inhabits w file meanings (.paren type) v
  | readonly {file meanings type v} (h : Inhabits w file meanings type v) :
    Inhabits w file meanings (.readonly type) v
  -- Objects.
  /-- Properties that are not optional must be there, and properties that are there must have a
      value of their type. -/
  | object {file meanings members fields}
    (hsignatures : ∀ member ∈ members, (PropertySignature.ofMember? member).isSome)
    (hpresent : ∀ member ∈ members, ∀ s, PropertySignature.ofMember? member = some s →
      s.optional = false → (Dictionary.find? fields s.name).isSome)
    (h : ∀ member ∈ members, ∀ s, PropertySignature.ofMember? member = some s →
      ∀ type, s.type = some type → ∀ v, Dictionary.find? fields s.name = some v →
        Inhabits w file meanings type v) :
    Inhabits w file meanings (.object members) (.object fields)
  -- Names.
  | boundValues {file meanings name args holds v}
    (hbound : Dictionary.find? meanings name = some (.values holds)) (h : holds v) :
    Inhabits w file meanings (.reference (.ident name) args) v
  | boundType {file meanings name args file' meanings' type v}
    (hbound : Dictionary.find? meanings name = some (.written file' meanings' type))
    (h : Inhabits w file' meanings' type v) :
    Inhabits w file meanings (.reference (.ident name) args) v
  | aliasReference {file meanings name args d decl v}
    (hunbound : Dictionary.find? meanings name = none) (hplain : wellKnown? name = none)
    (hd : w.type? file name = some d) (hnode : d.node = .aliasNode decl)
    (h : Inhabits w d.file
      (paramMeanings d.file decl.params (args.map (.written file meanings)) []) decl.type.type v) :
    Inhabits w file meanings (.reference (.ident name) args) v
  /-- The values of an interface have its own properties and inhabit everything that it extends. -/
  | interfaceReference {file meanings name args d decl v}
    (hunbound : Dictionary.find? meanings name = none) (hplain : wellKnown? name = none)
    (hd : w.type? file name = some d) (hnode : d.node = .interfaceNode decl)
    (hparents : ∀ parent ∈ decl.parents, ∃ base, parent.name? = some (.ident base))
    (hinherited : ∀ parent ∈ decl.parents, ∀ base, parent.name? = some (.ident base) →
      Inhabits w d.file (paramMeanings d.file decl.params (args.map (.written file meanings)) [])
        (.reference (.ident base) (parent.args.map (·.type))) v)
    (hown : Inhabits w d.file
      (paramMeanings d.file decl.params (args.map (.written file meanings)) [])
      (.object decl.members) v) :
    Inhabits w file meanings (.reference (.ident name) args) v

end ElementCatalog
