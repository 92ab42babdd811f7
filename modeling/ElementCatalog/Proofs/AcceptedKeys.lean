import ElementCatalog.Proofs.DeclarationReadings
import ElementCatalog.Proofs.PickedKeys

/-!
# The keys that `keyof` accepts

The keys of an object type are the names of all its members, inherited ones included.  The schema of
`keyof` lists the names of the properties that the object is read to, and methods are no properties
there.  An object without properties is read to any string instead.  Toward: exactly which names the
schema accepts, and exactly when it accepts the name of every member.  The route:

* the members of a type are followed through its clauses, aliases and changes (`HasMembers`), with
  the declarations that are open on the way;
* by induction, such a type is read to an object whose names are those of the members that are no
  methods;
* the schema of the names then rejects a method unless there is nothing else.
-/

namespace ElementCatalog

open Source (TypeExpr TypeMember Heritage EntityName InterfaceDecl AliasDecl ClassDef)
open ElementCatalog.Types

/-! ## Schemas of names -/

namespace Types

/-- The schema of the names of an object accepts these, and any text if there are none. -/
theorem keysSchema_accepts_iff {object : ObjectSchema} {s : String} :
    (keysSchema (.object object)).accepts (.string s) = true ↔
      s ∈ object.propertyNames ∨ ∀ n, n ∉ object.propertyNames := by
  rw [keysSchema]
  split
  · next hempty =>
      have hnone : object.propertyNames = [] := by
        rw [ObjectSchema.propertyNames, Dictionary.names, List.isEmpty_iff.mp hempty, List.map_nil]
      rw [hnone]
      exact iff_of_true rfl (Or.inr fun _ => List.not_mem_nil)
  · next hsome =>
      rw [Workspace.enumeration_accepts_iff]
      refine ⟨Or.inl, fun h => h.resolve_right fun hnone => hsome ?_⟩
      rw [ObjectSchema.propertyNames] at hnone
      exact List.isEmpty_iff.mpr (List.map_eq_nil_iff.mp (List.eq_nil_iff_forall_not_mem.mpr hnone))

/-- Items that are all read to objects have these objects. -/
theorem exists_mapM_object? {α : Type} {read : α → Schema} {items : List α}
    (h : ∀ item ∈ items, ∃ object, read item = .object object) :
    ∃ objects, (items.map read).mapM object? = some objects ∧
      ∀ object, object ∈ objects ↔ ∃ item ∈ items, read item = .object object := by
  induction items with
  | nil => exact ⟨[], rfl, by simp⟩
  | cons item rest ih =>
      obtain ⟨⟨first, hfirst⟩, hrest⟩ := List.forall_mem_cons.mp h
      obtain ⟨objects, hobjects, hmem⟩ := ih hrest
      refine ⟨first :: objects, ?_, fun object => ?_⟩
      · rw [List.map_cons, List.mapM_cons, hfirst, hobjects]
        rfl
      · rw [List.mem_cons, hmem]
        simp [hfirst, eq_comm]

end Types

/-- The use of names for properties. -/
def NameUse.ofProperties (names : List String) : List NameUse :=
  names.map fun name => ⟨name, false⟩

/-- A name is used for a property exactly if it is among the names. -/
theorem NameUse.mem_ofProperties {names : List String} {n : String} :
    ⟨n, false⟩ ∈ ofProperties names ↔ n ∈ names := by
  simp [ofProperties]

namespace Workspace

/-! ## Members of types -/

/-- A type that is read in a scope, while the `opened` declarations are being expanded, has members
    that use names.  A type parameter and a class have properties only; of a heritage clause whose
    members are not known nothing counts but the properties that it is read to. -/
inductive HasMembers (w : Workspace) :
    List DeclarationKey → Scope → TypeExpr → List NameUse → Prop where
  | object {opened scope members} :
    HasMembers w opened scope (.object members) (NameUse.ofMembers members)
  | paren {opened scope type uses} (h : HasMembers w opened scope type uses) :
    HasMembers w opened scope (.paren type) uses
  | readonly {opened scope type uses} (h : HasMembers w opened scope type uses) :
    HasMembers w opened scope (.readonly type) uses
  | intersection {opened scope members} {used : TypeExpr → List NameUse}
    (hmembers : ∀ member ∈ members, HasMembers w opened scope member (used member)) :
    HasMembers w opened scope (.intersection members) (members.flatMap used)
  /-- `Partial`, `Required`, `Readonly`, and `Pick` and `Omit` of listed keys. -/
  | changed {opened scope name change first rest uses}
    (hunbound : Dictionary.find? scope.bindings name = none)
    (hchange : shapeChange? name = some change) (hkeys : ∀ keys ∈ rest, ListsKeys keys)
    (h : HasMembers w opened scope first uses) :
    HasMembers w opened scope (.reference (.ident name) (first :: rest))
      (uses.filter fun u => change.keeps (keysArgument (first :: rest)) u.name)
  | parameter {opened scope name args object}
    (hbound : Dictionary.find? scope.bindings name = some (.object object)) :
    HasMembers w opened scope (.reference (.ident name) args)
      (NameUse.ofProperties object.propertyNames)
  | interfaceReference {opened scope name args d decl} (known : Heritage → Prop)
    (used : Heritage → List NameUse) (hrefers : w.RefersTo scope name d)
    (hclosed : d.key ∉ opened) (hnode : d.node = .interfaceNode decl)
    (hnames : ∀ parent ∈ decl.parents, known parent → parent.name? ≠ none)
    (hknown : ∀ parent ∈ decl.parents, known parent → ∀ base, parent.name? = some base →
      HasMembers w (d.key :: opened) (w.innerScope opened d args scope)
        (.reference base (parent.args.map (·.type))) (used parent))
    (hread : ∀ parent ∈ decl.parents, ¬known parent → used parent =
      NameUse.ofProperties (((clauseObject? w (w.expanderOn (d.key :: opened)).schema
        (w.innerScope opened d args scope) parent).map ObjectSchema.propertyNames).getD [])) :
    HasMembers w opened scope (.reference name args)
      (decl.parents.flatMap used ++ NameUse.ofMembers decl.members)
  | aliasReference {opened scope name args d decl uses} (hrefers : w.RefersTo scope name d)
    (hclosed : d.key ∉ opened) (hnode : d.node = .aliasNode decl)
    (h : HasMembers w (d.key :: opened) (w.innerScope opened d args scope) decl.type.type uses) :
    HasMembers w opened scope (.reference name args) uses
  | classReference {opened scope name args d value} (hrefers : w.RefersTo scope name d)
    (hclosed : d.key ∉ opened) (hnode : d.node = .classNode value) :
    HasMembers w opened scope (.reference name args) (NameUse.ofFields value)

variable {w : Workspace} {opened : List DeclarationKey} {scope : Scope} {type : TypeExpr}
  {uses : List NameUse}

/-- A type is read to an object that has the names which are used for properties. -/
def ReadsProperties (w : Workspace) (opened : List DeclarationKey) (scope : Scope)
    (type : TypeExpr) (uses : List NameUse) : Prop :=
  ∃ object, schemaOf w (w.expanderOn opened).schema scope type = .object object ∧
    ∀ n, n ∈ object.propertyNames ↔ ⟨n, false⟩ ∈ uses

/-- Types that are all read to objects have an intersection with all their properties. -/
theorem readsProperties_intersection {members : List TypeExpr} {used : TypeExpr → List NameUse}
    (h : ∀ member ∈ members, w.ReadsProperties opened scope member (used member)) :
    w.ReadsProperties opened scope (.intersection members) (members.flatMap used) := by
  obtain ⟨objects, hobjects, hmem⟩ := exists_mapM_object? fun member hmember =>
    (h member hmember).imp fun _ hobject => hobject.1
  refine ⟨objects.foldl ObjectSchema.merge .empty, ?_, fun n => ?_⟩
  · rw [schemaOf, intersectionSchema, schemasOf_eq_map, hobjects]
  · rw [ObjectSchema.mem_propertyNames_foldl_merge,
      or_iff_right ObjectSchema.notMem_propertyNames_empty, List.mem_flatMap]
    constructor
    · rintro ⟨object, hobject, hn⟩
      obtain ⟨member, hmember, hread⟩ := (hmem object).mp hobject
      obtain ⟨object', hread', hnames⟩ := h member hmember
      cases hread.symm.trans hread'
      exact ⟨member, hmember, (hnames n).mp hn⟩
    · rintro ⟨member, hmember, hn⟩
      obtain ⟨object, hread, hnames⟩ := h member hmember
      exact ⟨object, (hmem object).mpr ⟨member, hmember, hread⟩, (hnames n).mpr hn⟩

/-- An interface is read to an object with its own properties and those of its clauses, if every
    clause uses the names of the object that it is read to. -/
theorem readsProperties_interface {name : EntityName} {args : List TypeExpr} {d : Declaration}
    {decl : InterfaceDecl} {used : Heritage → List NameUse} (hrefers : w.RefersTo scope name d)
    (hclosed : d.key ∉ opened) (hnode : d.node = .interfaceNode decl)
    (hparents : ∀ parent ∈ decl.parents, ∀ n, ⟨n, false⟩ ∈ used parent ↔
      ∃ object, clauseObject? w (w.expanderOn (d.key :: opened)).schema
        (w.innerScope opened d args scope) parent = some object ∧ n ∈ object.propertyNames) :
    w.ReadsProperties opened scope (.reference name args)
      (decl.parents.flatMap used ++ NameUse.ofMembers decl.members) := by
  refine ⟨interfaceObject w (w.expanderOn (d.key :: opened)).schema
    (w.innerScope opened d args scope) decl, ?_, fun n => ?_⟩
  · rw [(reading_of_reference hrefers hclosed args).1, (declaration_of_interface hnode _).1]
    exact interfaceSchema_eq decl
  · rw [mem_names_interfaceObject, List.mem_append, List.mem_flatMap]
    refine or_congr_left (exists_congr fun parent => and_congr_right fun hparent => ?_)
    exact (hparents parent hparent n).symm

/-- A type with known members is read to an object with the names of those that are no methods. -/
theorem HasMembers.readsProperties (h : w.HasMembers opened scope type uses) :
    w.ReadsProperties opened scope type uses := by
  induction h with
  | object =>
      refine ⟨_, by rw [schemaOf], fun n => ?_⟩
      rw [ObjectSchema.mem_propertyNames_insertAll,
        or_iff_right ObjectSchema.notMem_propertyNames_empty, mem_names_entriesOf]
  | paren _ ih | readonly _ ih =>
      obtain ⟨object, hobject, hnames⟩ := ih
      exact ⟨object, by rw [schemaOf, hobject], hnames⟩
  | intersection _ ih => exact readsProperties_intersection ih
  | @changed opened scope name change first rest uses hunbound hchange _ _ ih =>
      obtain ⟨object, hobject, hnames⟩ := ih
      obtain ⟨hschema, -⟩ := w.reading_of_changed opened scope hchange first rest
      refine ⟨_, hschema object hunbound hobject, fun n => ?_⟩
      rw [ObjectSchema.mem_propertyNames_applyTo, hnames, List.mem_filter]
  | @parameter _ _ _ args object hbound =>
      exact ⟨object, schemaOf_bound hbound args, fun n => NameUse.mem_ofProperties.symm⟩
  | @interfaceReference opened scope name args d decl known used hrefers hclosed hnode hnames _
      hread ih =>
      refine readsProperties_interface hrefers hclosed hnode fun parent hparent n => ?_
      by_cases hparentKnown : known parent
      · obtain ⟨base, hbase⟩ := Option.ne_none_iff_exists'.mp (hnames parent hparent hparentKnown)
        obtain ⟨object, hobject, hobjectNames⟩ := ih parent hparent hparentKnown base hbase
        have hclause : clauseObject? w (w.expanderOn (d.key :: opened)).schema
            (w.innerScope opened d args scope) parent = some object := by
          rw [clauseObject?, hbase, Option.bind_some, hobject, object?]
        rw [hclause, ← hobjectNames]
        simp
      · rw [hread parent hparent hparentKnown, NameUse.mem_ofProperties]
        cases clauseObject? w (w.expanderOn (d.key :: opened)).schema
            (w.innerScope opened d args scope) parent <;> simp
  | aliasReference hrefers hclosed hnode _ ih =>
      obtain ⟨object, hobject, hnames⟩ := ih
      refine ⟨object, ?_, hnames⟩
      rw [(reading_of_reference hrefers hclosed _).1, (declaration_of_alias hnode _).1]
      exact hobject
  | classReference hrefers hclosed hnode =>
      obtain ⟨object, hobject, hnames⟩ := exists_classObject _
      refine ⟨object, ?_, hnames⟩
      rw [(reading_of_reference hrefers hclosed _).1, (declaration_of_class hnode _).1]
      exact hobject

/-! ## Accepted keys -/

/-- A type is written as an object type, or refers to an interface that is not being expanded. -/
inductive IsObjectOrInterface (w : Workspace) (opened : List DeclarationKey) (scope : Scope) :
    TypeExpr → Prop where
  | object (members : List TypeMember) : IsObjectOrInterface w opened scope (.object members)
  | interface {name : EntityName} {d : Declaration} {decl : InterfaceDecl}
    (hrefers : w.RefersTo scope name d) (hclosed : d.key ∉ opened)
    (hnode : d.node = .interfaceNode decl) (args : List TypeExpr) :
    IsObjectOrInterface w opened scope (.reference name args)

/-- The members of an object type and of an interface can be followed, if need be with no more of
    its clauses than they are read to. -/
theorem IsObjectOrInterface.exists_members (h : w.IsObjectOrInterface opened scope type) :
    ∃ uses, w.HasMembers opened scope type uses := by
  cases h with
  | object members => exact ⟨_, .object⟩
  | interface hrefers hclosed hnode args =>
      exact ⟨_, .interfaceReference (fun _ => False) _ hrefers hclosed hnode
        (fun _ _ hknown => hknown.elim) (fun _ _ hknown => hknown.elim) fun _ _ _ => rfl⟩

/-- The text is accepted as a key of a type that is read on a path. -/
def AcceptsKey (w : Workspace) (opened : List DeclarationKey) (scope : Scope) (type : TypeExpr)
    (key : String) : Prop :=
  (schemaOf w (w.expanderOn opened).schema scope (.keyof type)).accepts (.string key) = true

/-- The keys of a type with known members are the names of those that are no methods, and any text
    if all members are methods. -/
theorem HasMembers.acceptsKey_iff (h : w.HasMembers opened scope type uses) (key : String) :
    w.AcceptsKey opened scope type key ↔
      ⟨key, false⟩ ∈ uses ∨ ∀ u ∈ uses, u.isMethod = true := by
  obtain ⟨object, hobject, hnames⟩ := h.readsProperties
  rw [AcceptsKey, schemaOf, hobject, keysSchema_accepts_iff, hnames]
  refine or_congr_right ⟨fun hnone u hu => ?_, fun hall n hn => ?_⟩
  · by_contra hproperty
    obtain ⟨name, isMethod⟩ := u
    rw [Bool.not_eq_true] at hproperty
    cases hproperty
    exact hnone name ((hnames name).mpr hu)
  · exact absurd (hall _ ((hnames n).mp hn)) Bool.false_ne_true

/-- **Accepted keys**: the members of an object type or of an interface can be followed, inherited
    ones included, and `keyof` accepts exactly the names that are used for properties, or every text
    if all members are methods. So it accepts the names of all members exactly if every name of a
    method is used for a property too, or all members are methods. -/
theorem keyof_accepts_iff (w : Workspace) (opened : List DeclarationKey) (scope : Scope)
    (type : TypeExpr) (htype : w.IsObjectOrInterface opened scope type) :
    (∃ uses, w.HasMembers opened scope type uses) ∧
    ∀ uses, w.HasMembers opened scope type uses →
      (∀ key, w.AcceptsKey opened scope type key ↔
        ⟨key, false⟩ ∈ uses ∨ ∀ u ∈ uses, u.isMethod = true) ∧
      ((∀ u ∈ uses, w.AcceptsKey opened scope type u.name) ↔
        (∀ u ∈ uses, ⟨u.name, false⟩ ∈ uses) ∨ ∀ u ∈ uses, u.isMethod = true) := by
  refine ⟨htype.exists_members, fun uses h => ⟨h.acceptsKey_iff, ?_⟩⟩
  constructor
  · intro hall
    by_cases hmethods : ∀ u ∈ uses, u.isMethod = true
    · exact Or.inr hmethods
    · exact Or.inl fun u hu => ((h.acceptsKey_iff u.name).mp (hall u hu)).resolve_right hmethods
  · rintro (hall | hmethods) u hu
    · exact (h.acceptsKey_iff u.name).mpr (Or.inl (hall u hu))
    · exact (h.acceptsKey_iff u.name).mpr (Or.inr hmethods)

/-! ## Methods beside properties -/

/-- The interface `Named`, with a name and a method to change it. -/
def namedInterface : InterfaceDecl :=
  { start := ⟨0, 1⟩
    name := "Named"
    params := []
    parents := []
    members :=
      [ .property ⟨18, 1⟩ (.ident "name" false) false (some (.keyword .string)),
        .method ⟨32, 1⟩ (.ident "rename" false) false (some (.keyword .string)) ]
    inner := [] }

/-- The interface `Guest`, which extends `Named` by a number and a method. -/
def guestInterface : InterfaceDecl :=
  { start := ⟨62, 2⟩
    name := "Guest"
    params := []
    parents := [⟨.ident "Named", []⟩]
    members :=
      [ .property ⟨94, 2⟩ (.ident "seat" false) false (some (.keyword .number)),
        .method ⟨108, 2⟩ (.ident "greet" false) false none ]
    inner := [] }

/-- A module that declares the two interfaces. -/
def guestModule : ParsedFile :=
  { path := ⟨[.root, .name "guest.ts"]⟩
    module := ⟨[.interfaceDecl namedInterface, .interfaceDecl guestInterface], []⟩
    discoverable := true }

/-- The file of that module. -/
def guestFile : SourceFile :=
  Program.placed ⟨[.root]⟩ guestModule 0

/-- The workspace of that file alone. -/
def guestWorkspace : Workspace :=
  .ofProgram (.ofParsed ⟨[.root]⟩ [guestModule]) {}

/-- The type of guests. -/
def guestType : TypeExpr :=
  .reference (.ident "Guest") []

/-- The members of a guest are two properties and two methods. -/
def guestUses : List NameUse :=
  [⟨"name", false⟩, ⟨"rename", true⟩, ⟨"seat", false⟩, ⟨"greet", true⟩]

/-- The declaration of `Named`. -/
def namedDeclaration : Declaration :=
  ⟨"Named", guestFile, .interfaceNode namedInterface, [⟨0, 1⟩], ⟨0, 1⟩⟩

/-- The declaration of `Guest`. -/
def guestDeclaration : Declaration :=
  ⟨"Guest", guestFile, .interfaceNode guestInterface, [⟨62, 2⟩], ⟨62, 2⟩⟩

/-- The name `Named` refers to its declaration, wherever the file is read. -/
theorem refersTo_named {scope : Scope} (hfile : scope.file = guestFile)
    (hbound : Dictionary.find? scope.bindings "Named" = none) :
    guestWorkspace.RefersTo scope (.ident "Named") namedDeclaration := by
  refine .plain hbound rfl ?_
  rw [hfile]
  exact type?_placed _ _ _ rfl

/-- The name `Guest` refers to its declaration. -/
theorem refersTo_guest :
    guestWorkspace.RefersTo (.ofFile guestFile) (.ident "Guest") guestDeclaration :=
  .plain rfl rfl (type?_placed _ _ _ rfl)

/-- A guest has the members of `Named` and its own. -/
theorem guest_hasMembers :
    guestWorkspace.HasMembers [] (.ofFile guestFile) guestType guestUses := by
  have hnamed : guestWorkspace.HasMembers [guestDeclaration.key]
      (guestWorkspace.innerScope [] guestDeclaration [] (.ofFile guestFile))
      (.reference (.ident "Named") []) (NameUse.ofMembers namedInterface.members) :=
    .interfaceReference (fun _ => True) (fun _ => [])
      (refersTo_named rfl rfl) (by decide) rfl (fun _ hparent => by cases hparent)
      (fun _ hparent => by cases hparent) fun _ hparent => by cases hparent
  refine .interfaceReference (fun _ => True) (fun _ => NameUse.ofMembers namedInterface.members)
    refersTo_guest List.not_mem_nil rfl ?_ ?_ fun _ _ hknown => absurd trivial hknown
  · intro parent hparent _
    rw [List.mem_singleton.mp hparent]
    exact Option.some_ne_none _
  · intro parent hparent _ base hbase
    cases List.mem_singleton.mp hparent
    cases hbase
    exact hnamed

/-- The keys of a guest are its properties, and its methods are rejected. -/
theorem methods_of_guest_rejected :
    guestWorkspace.IsObjectOrInterface [] (.ofFile guestFile) guestType ∧
      guestWorkspace.HasMembers [] (.ofFile guestFile) guestType guestUses ∧
      guestWorkspace.AcceptsKey [] (.ofFile guestFile) guestType "name" ∧
      ¬guestWorkspace.AcceptsKey [] (.ofFile guestFile) guestType "rename" ∧
      ¬guestWorkspace.AcceptsKey [] (.ofFile guestFile) guestType "greet" := by
  have htype : guestWorkspace.IsObjectOrInterface [] (.ofFile guestFile) guestType :=
    .interface refersTo_guest List.not_mem_nil rfl []
  obtain ⟨hiff, -⟩ := (keyof_accepts_iff guestWorkspace [] (.ofFile guestFile) guestType htype).2
    guestUses guest_hasMembers
  refine ⟨htype, guest_hasMembers, (hiff "name").mpr (by decide), ?_, ?_⟩
  · rw [hiff "rename"]
    decide
  · rw [hiff "greet"]
    decide

end Workspace

end ElementCatalog
