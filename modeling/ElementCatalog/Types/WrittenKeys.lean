import ElementCatalog.Source.Evaluation
import ElementCatalog.Types.Expansion

/-!
# Written keys — the names that members are written with

The keys that are written in a type, in a declaration or in literal data, at every depth, and the
names that occur in a schema.  Each key gives its member a name, as the language has it, and is read
as a name.  The two are told apart here: what is in brackets is computed and names nothing, unless
it is a string; a number names by its shortest text, with an exponent where it is large or small;
and one entry of an object literal sets the prototype instead of a field.
-/

namespace ElementCatalog

/-! ## Texts of numbers -/

namespace Decimal

/-- `n · 10 ^ place` with one digit, the others after the point, and the exponent with its sign. -/
def scientific (n : Nat) (place : Int) : String :=
  let digits := digitsOf n
  let lead : Int := place + digits.length - 1
  let tail := if digits.length ≤ 1 then "" else "." ++ String.ofList (digits.drop 1)
  String.ofList (digits.take 1) ++ tail ++ (if lead < 0 then "e-" else "e+") ++
    Nat.repr lead.natAbs

/-- The exponent of the leading digit of `n · 10 ^ place` is between -6 and 20. -/
def IsModerate (n : Nat) (place : Int) : Prop :=
  -6 ≤ place + (digitsOf n).length - 1 ∧ place + (digitsOf n).length - 1 ≤ 20

instance (n : Nat) (place : Int) : Decidable (IsModerate n place) :=
  inferInstanceAs (Decidable (_ ∧ _))

/-- The text that a number is converted to where it names a member. -/
def keyText (x : Float) : String :=
  match Binary.ofFloat x with
  | .nan => "NaN"
  | .infinite negative => if negative then "-Infinity" else "Infinity"
  | .finite negative mantissa exponent =>
    let (n, place) := shortest mantissa exponent
    if mantissa = 0 then "0"
    else
      (if negative then "-" else "") ++
        if IsModerate n place then positional n place "" else scientific n place

end Decimal

namespace Source

/-! ## Keys -/

/-- The key that a member is written with: that of a member of an object type, that of a field of a
    class, or that of an entry of an object literal, with the entry. -/
inductive WrittenKey where
  | member (key : MemberKey)
  | field (key : Key)
  | entry (property : Property)

/-- The name that the key of a member of an object type gives to it, if it is an identifier without
    brackets or a string.  Nothing else is kept of a key, or read of it. -/
def MemberKey.givenName? : MemberKey → Option String
  | .ident name computed => if computed then none else some name
  | .literal text => text

/-- The name of an identifier in brackets. -/
def MemberKey.bracketed? : MemberKey → Option String
  | .ident name computed => if computed then some name else none
  | .literal _ => none

/-- The name that a key gives to a field.  What is in brackets is known only if it is a string. -/
def Key.givenName? : Key → Option String
  | .ident _ name => some name
  | .string _ literal => literal.value?
  | .number _ x => some (Decimal.keyText x)
  | .computed _ (.string literal) => literal.value?
  | .computed _ _ => none
  | .other _ => none

/-- The name that a number is read as where it is not the one that it gives. -/
def Key.misread? : Key → Option String
  | .number _ x => if Decimal.plain x = Decimal.keyText x then none else some (Decimal.plain x)
  | _ => none

/-- The name of the field that an entry of an object literal makes. -/
def Property.givenName? : Property → Option String
  | .keyValue (.computed start value) _ => Key.givenName? (.computed start value)
  | .keyValue key _ => key.givenName?.filter (· != prototypeKey)
  | .shorthand name => some name
  | .method key _ => key.givenName?
  | .accessor key _ _ _ => key.givenName?
  | .withDefault _ _ => none
  | .spread _ => none

/-- The name that an entry of an object literal is read as: that of a key with a value, or that of a
    variable. -/
def Property.readName? : Property → Option String
  | .keyValue key _ => key.name?
  | .shorthand name => some name
  | _ => none

/-- The name that an entry of an object literal is read as where it is not the one that it gives: a
    number is spelled otherwise, or the entry sets the prototype. -/
def Property.misread? : Property → Option String
  | .keyValue key _ => key.misread?.or (key.name?.filter (· == prototypeKey))
  | _ => none

namespace WrittenKey

/-- The name that a key is read as, if any. -/
def readName? : WrittenKey → Option String
  | .member key => key.name?
  | .field key => key.name?
  | .entry property => property.readName?

/-- The name that a key gives to its member. -/
def givenName? : WrittenKey → Option String
  | .member key => key.givenName?
  | .field key => key.givenName?
  | .entry property => property.givenName?

/-- The name that a key is read as where it is not the one that it gives. -/
def misread? : WrittenKey → Option String
  | .member key => key.bracketed?
  | .field key => key.misread?
  | .entry property => property.misread?

end WrittenKey

/-- The names that keys are read as where they are not the ones that they give. -/
def misreadNames (keys : List WrittenKey) : List String :=
  keys.filterMap WrittenKey.misread?

/-- None of these names is invented: each is given by a key, or is among other names. -/
def InventsNone (names : List String) (keys : List WrittenKey) (others : List String) : Prop :=
  ∀ name ∈ names, name ∈ keys.filterMap WrittenKey.givenName? ∨ name ∈ others

instance (names : List String) (keys : List WrittenKey) (others : List String) :
    Decidable (InventsNone names keys others) :=
  inferInstanceAs (Decidable (∀ name ∈ names, _ ∨ _))

/-! ## Types -/

/-- The key of a member of an object type. -/
def TypeMember.key? : TypeMember → Option WrittenKey
  | .property _ key _ _ => some (.member key)
  | .method _ key _ _ => some (.member key)
  | .getter _ key _ => some (.member key)
  | .other => none

/-- The key of a member of an object type that is no method. -/
def TypeMember.propertyKey? : TypeMember → Option WrittenKey
  | .property _ key _ _ => some (.member key)
  | .getter _ key _ => some (.member key)
  | .method _ _ _ _ => none
  | .other => none

/-- The keys of the members of an object type. -/
def keysOfMembers (members : List TypeMember) : List WrittenKey :=
  members.filterMap TypeMember.key?

/-- The keys of the members of an object type that are no methods. -/
def keysOfProperties (members : List TypeMember) : List WrittenKey :=
  members.filterMap TypeMember.propertyKey?

mutual

/-- The keys that are written in a type.  The parameters of functions are no part of its data. -/
def TypeExpr.writtenKeys : TypeExpr → List WrittenKey
  | .reference _ args => writtenKeysOfAll args
  | .object members => writtenKeysOfMembers members
  | .array items => items.writtenKeys
  | .tuple elements => writtenKeysOfAll elements
  | .optional type => type.writtenKeys
  | .rest type => type.writtenKeys
  | .union members => writtenKeysOfAll members
  | .intersection members => writtenKeysOfAll members
  | .paren type => type.writtenKeys
  | .readonly type => type.writtenKeys
  | .keyof type => type.writtenKeys
  | .indexed object _ => object.writtenKeys
  | .keyword _ => []
  | .literal _ => []
  | .mapped => []
  | .predicate => []
  | .function _ => []
  | .other => []

/-- The keys that are written in several types. -/
def writtenKeysOfAll : List TypeExpr → List WrittenKey
  | [] => []
  | type :: rest => type.writtenKeys ++ writtenKeysOfAll rest

/-- The keys that are written in a declared type, if there is one. -/
def writtenKeysOfDeclared : Option TypeExpr → List WrittenKey
  | none => []
  | some type => type.writtenKeys

/-- The key of a member of an object type and those in its type. -/
def TypeMember.writtenKeys : TypeMember → List WrittenKey
  | .property _ key _ type => .member key :: writtenKeysOfDeclared type
  | .method _ key _ _ => [.member key]
  | .getter _ key type => .member key :: writtenKeysOfDeclared type
  | .other => []

/-- The keys that are written in members of an object type. -/
def writtenKeysOfMembers : List TypeMember → List WrittenKey
  | [] => []
  | member :: rest => member.writtenKeys ++ writtenKeysOfMembers rest

end

/-! ## Literal data -/

mutual

/-- The keys that are written in literal data and in the types that are asserted in it. -/
def Expr.writtenKeys : Expr → List WrittenKey
  | .asType _ type => type.type.writtenKeys
  | .satisfies inner _ => inner.writtenKeys
  | .asConst inner => inner.writtenKeys
  | .nonNull inner => inner.writtenKeys
  | .paren inner => inner.writtenKeys
  | .object properties => writtenKeysOfEntries properties
  | .array elements => writtenKeysOfElements elements
  | _ => []

/-- The keys that are written in entries of an object literal. -/
def writtenKeysOfEntries : List Property → List WrittenKey
  | [] => []
  | property :: rest => property.writtenKeys ++ writtenKeysOfEntries rest

/-- The key of an entry of an object literal and those in its value. -/
def Property.writtenKeys : Property → List WrittenKey
  | .keyValue key value => .entry (.keyValue key value) :: value.writtenKeys
  | property => [.entry property]

/-- The keys that are written in elements of a list. -/
def writtenKeysOfElements : List Expr → List WrittenKey
  | [] => []
  | element :: rest => element.writtenKeys ++ writtenKeysOfElements rest

end

end Source

/-! ## Declarations -/

open Source (WrittenKey ClassMember TypeParam)

/-- The key of a public field of the instances of a class, and those in its type. -/
def Source.ClassMember.writtenKeys : ClassMember → List WrittenKey
  | .field _ modifiers _ key type _ =>
    if !modifiers.isStatic && modifiers.isPublic then
      .field key :: Source.writtenKeysOfDeclared (type.map (·.type))
    else []
  | _ => []

/-- The keys that are written in the defaults of type parameters. -/
def Source.writtenKeysOfParams (params : List TypeParam) : List WrittenKey :=
  params.flatMap fun param => Source.writtenKeysOfDeclared param.default

/-- The keys that are written in a declaration. -/
def Declaration.writtenKeys (d : Declaration) : List WrittenKey :=
  match d.node with
  | .interfaceNode decl =>
    Source.writtenKeysOfParams decl.params ++
      (decl.parents.flatMap fun parent => Source.writtenKeysOfAll (parent.args.map (·.type))) ++
      Source.writtenKeysOfMembers decl.members
  | .aliasNode decl => Source.writtenKeysOfParams decl.params ++ decl.type.type.writtenKeys
  | .classNode value =>
    Source.writtenKeysOfParams value.params ++ value.members.flatMap ClassMember.writtenKeys
  | _ => []

/-! ## Names in schemas -/

mutual

/-- The names that occur in a schema, at every depth: those of properties, and those required. -/
def Schema.allNames : Schema → List String
  | .object shape => shape.allNames
  | .array items => items.allNames
  | .alternatives members => namesOfMembers members
  | .primitive _ _ => []
  | .multiType _ => []
  | .enumeration _ _ => []
  | .unconstrained => []

/-- The names that occur in an object, at every depth. -/
def ObjectSchema.allNames : ObjectSchema → List String
  | ⟨properties, required⟩ => namesOfProperties properties ++ required

/-- The names of properties and those that occur in their schemas. -/
def namesOfProperties : List (String × Schema) → List String
  | [] => []
  | (name, schema) :: rest => name :: schema.allNames ++ namesOfProperties rest

/-- The names that occur in several schemas. -/
def namesOfMembers : List Schema → List String
  | [] => []
  | member :: rest => member.allNames ++ namesOfMembers rest

end

end ElementCatalog
