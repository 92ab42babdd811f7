import ElementCatalog.Types.References

/-!
# Shape types — types that say of each of their names what it is

A shape type is an object type, or is put together of shape types: in parentheses, as an
intersection, by a name of a declaration that is not recursive, or by a well-known name that changes
its members. It comes with the names that it uses, so that it can be said that no name is used for a
property and for a method.
-/

namespace ElementCatalog

open Source (TypeExpr TypeMember Heritage)
open ElementCatalog.Types

/-- The member is a method: a callback without a declared type. -/
def ShapeMember.isMethod (m : ShapeMember) : Bool :=
  m.type.isNone && m.callback.isSome

/-- The schema of a member: that of its declared type in its own scope, if it has one. -/
def Workspace.memberSchema (w : Workspace) (m : ShapeMember) : Schema :=
  (m.type.map (w.schemaIn m.scope)).getD .unconstrained

/-- A name that a shape uses for a property or for a method. -/
structure NameUse where
  name : String
  isMethod : Bool
deriving DecidableEq, Repr

/-- The use of its name by a member. -/
def ShapeMember.use (m : ShapeMember) : NameUse :=
  ⟨m.name, m.isMethod⟩

namespace NameUse

/-- The use of a name by a member of an object type. -/
def ofMember? : TypeMember → Option NameUse
  | .property _ key _ _ => key.name?.map fun name => ⟨name, false⟩
  | .getter _ key _ => key.name?.map fun name => ⟨name, false⟩
  | .method _ key _ _ => key.name?.map fun name => ⟨name, true⟩
  | .other => none

/-- The uses of names by the members of an object type. -/
def ofMembers (members : List TypeMember) : List NameUse :=
  members.filterMap ofMember?

/-- The uses of names by the public fields of a class. -/
def ofFields (value : Source.ClassDef) : List NameUse :=
  (classFields value).map fun field => ⟨field.name, false⟩

/-- No name is used twice. -/
def Once (uses : List NameUse) : Prop :=
  (uses.map (·.name)).Nodup

/-- No name is used both for a property and for a method. -/
def Consistent (uses : List NameUse) : Prop :=
  ∀ u ∈ uses, ∀ v ∈ uses, u.name = v.name → u.isMethod = v.isMethod

instance (uses : List NameUse) : Decidable (Once uses) :=
  inferInstanceAs (Decidable (uses.map (·.name)).Nodup)

instance (uses : List NameUse) : Decidable (Consistent uses) :=
  inferInstanceAs (Decidable (∀ u ∈ uses, ∀ v ∈ uses, u.name = v.name → u.isMethod = v.isMethod))

end NameUse

/-- A change of a shape keeps the member of a name, where `keys` are the keys to pick or to omit. -/
def Types.ShapeChange.keeps (keys : List String) (name : String) : ShapeChange → Bool
  | .setOptional _ => true
  | .keep => true
  | .pick => keys.contains name
  | .omit => !keys.contains name

/-- A type that is written in a file, where the `params` are type parameters, is a shape type that
    uses names. No type parameter stands in the place of a shape, no declaration that is looked into
    is recursive or has a well-known name, no body uses a name twice, and no shape uses a name both
    for a property and for a method. -/
inductive ShapeType (w : Workspace) :
    SourceFile → (params : List String) → TypeExpr → List NameUse → Prop where
  | object {file params members} (honce : NameUse.Once (NameUse.ofMembers members)) :
    ShapeType w file params (.object members) (NameUse.ofMembers members)
  | paren {file params type uses} (h : ShapeType w file params type uses) :
    ShapeType w file params (.paren type) uses
  | readonly {file params type uses} (h : ShapeType w file params type uses) :
    ShapeType w file params (.readonly type) uses
  | intersection {file params members} {used : TypeExpr → List NameUse}
    (hmembers : ∀ member ∈ members, ShapeType w file params member (used member))
    (hconsistent : NameUse.Consistent (members.flatMap used)) :
    ShapeType w file params (.intersection members) (members.flatMap used)
  /-- `Partial`, `Required`, `Readonly`, `Pick` and `Omit` of a shape type. -/
  | changed {file params name change first rest uses} (hparam : name ∉ params)
    (hchange : shapeChange? name = some change) (h : ShapeType w file params first uses) :
    ShapeType w file params (.reference (.ident name) (first :: rest))
      (uses.filter fun u => change.keeps (keysArgument (first :: rest)) u.name)
  | interfaceReference {file params name args d decl} {used : Heritage → List NameUse}
    (hparam : name ∉ params) (hplain : wellKnown? name = none) (hd : w.type? file name = some d)
    (hnode : d.node = .interfaceNode decl) (hrecursive : ¬w.Recursive d)
    (hnames : ∀ parent ∈ decl.parents, ∃ base, parent.name? = some (.ident base))
    (hparents : ∀ parent ∈ decl.parents, ∀ base, parent.name? = some (.ident base) →
      ShapeType w d.file d.paramNames (.reference (.ident base) (parent.args.map (·.type)))
        (used parent))
    (honce : NameUse.Once (NameUse.ofMembers decl.members))
    (hconsistent :
      NameUse.Consistent (decl.parents.flatMap used ++ NameUse.ofMembers decl.members)) :
    ShapeType w file params (.reference (.ident name) args)
      (decl.parents.flatMap used ++ NameUse.ofMembers decl.members)
  | aliasReference {file params name args d decl uses} (hparam : name ∉ params)
    (hplain : wellKnown? name = none) (hd : w.type? file name = some d)
    (hnode : d.node = .aliasNode decl) (hrecursive : ¬w.Recursive d)
    (h : ShapeType w d.file d.paramNames decl.type.type uses) :
    ShapeType w file params (.reference (.ident name) args) uses
  | classReference {file params name args d value} (hparam : name ∉ params)
    (hplain : wellKnown? name = none) (hd : w.type? file name = some d)
    (hnode : d.node = .classNode value) (hrecursive : ¬w.Recursive d)
    (honce : NameUse.Once (NameUse.ofFields value)) :
    ShapeType w file params (.reference (.ident name) args) (NameUse.ofFields value)

end ElementCatalog
