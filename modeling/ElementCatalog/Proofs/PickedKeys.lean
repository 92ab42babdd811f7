import ElementCatalog.Proofs.AliasReadings
import ElementCatalog.Proofs.NormalSchemas

/-!
# The keys that `Pick` and `Omit` honour

`Pick<P, K>` keeps the properties of `P` whose names `K` denotes, and `Omit<P, K>` the others.  The
keys are read off the type `K` as it is written: an alias, a type parameter or `keyof T` lists no
keys.  Toward: which keys are honoured, and exactly when those that are listed are enough.  The
route:

* a type that denotes keys is read to a schema that accepts just these;
* the listed keys are among the denoted ones, and are all of them if the type is written out;
* a test on names gives the wanted properties exactly if it is right about every name of `P`.
-/

namespace ElementCatalog

open Source (TypeExpr)
open ElementCatalog.Types

/-! ## Tests on names -/

/-- Two tests leave the same of a list exactly if they agree on its elements. -/
theorem filter_eq_filter_iff {α : Type} {items : List α} {p q : α → Bool} :
    items.filter p = items.filter q ↔ ∀ a ∈ items, p a = q a := by
  refine ⟨fun h a ha => ?_, List.filter_congr⟩
  have hmem : a ∈ items.filter p ↔ a ∈ items.filter q := by rw [h]
  rw [List.mem_filter, List.mem_filter, and_iff_right ha, and_iff_right ha] at hmem
  exact Bool.eq_iff_iff.mpr hmem

/-- What a test on names leaves of an object are the properties whose names are wanted exactly if
    the test is right about the names of the object. -/
theorem ObjectSchema.restrict_keeps_iff {object : ObjectSchema}
    (h : (Dictionary.names object.properties).Nodup) (keep : String → Bool) (wanted : String → Prop)
    [DecidablePred wanted] :
    (∀ n, (object.restrict keep).property? n =
        if wanted n then object.property? n else none) ↔
      ∀ n ∈ Dictionary.names object.properties, (keep n = true ↔ wanted n) := by
  have hnone : ∀ n, object.property? n = none ↔ n ∉ Dictionary.names object.properties := by
    intro n
    rw [property?, Option.map_eq_none_iff, Dictionary.find?_eq_none_iff]
  constructor
  · intro hall n hn
    have hsome : object.property? n ≠ none := fun hnil => (hnone n).mp hnil hn
    have hsame := hall n
    rw [property?_restrict h] at hsame
    by_cases hkeep : keep n = true
    · by_cases hwanted : wanted n
      · exact iff_of_true hkeep hwanted
      · rw [if_pos hkeep, if_neg hwanted] at hsame
        exact absurd hsame hsome
    · by_cases hwanted : wanted n
      · rw [if_neg hkeep, if_pos hwanted] at hsame
        exact absurd hsame.symm hsome
      · exact iff_of_false hkeep hwanted
  · intro hright n
    rw [property?_restrict h]
    by_cases hn : n ∈ Dictionary.names object.properties
    · exact if_congr (hright n hn) rfl rfl
    · rw [(hnone n).mpr hn, ite_self, ite_self]

/-! ## Key types -/

/-- A type that lists its keys: string literals in unions and parentheses. -/
inductive ListsKeys : TypeExpr → Prop where
  | literal (value : Source.StringLiteral) : ListsKeys (.literal (.string value))
  | union {members : List TypeExpr} (h : ∀ member ∈ members, ListsKeys member) :
    ListsKeys (.union members)
  | paren {type : TypeExpr} (h : ListsKeys type) : ListsKeys (.paren type)

namespace Workspace

/-- A type that is read in a scope denotes a finite set of keys. -/
inductive DenotesKeys (w : Workspace) : Scope → TypeExpr → (keys : List String) → Prop where
  | literal {scope key} {value : Source.StringLiteral} (hkey : value.value? = some key) :
    DenotesKeys w scope (.literal (.string value)) [key]
  | union {scope members} {keysOf : TypeExpr → List String}
    (hmembers : ∀ member ∈ members, DenotesKeys w scope member (keysOf member)) :
    DenotesKeys w scope (.union members) (members.flatMap keysOf)
  | paren {scope type keys} (h : DenotesKeys w scope type keys) :
    DenotesKeys w scope (.paren type) keys
  | aliasReference {scope name args d decl keys} (hrefers : w.RefersToAlias scope name d decl)
    (h : DenotesKeys w (w.boundScope [] d args scope) decl.type.type keys) :
    DenotesKeys w scope (.reference (.ident name) args) keys
  /-- A type parameter that is bound to a type which was read in another scope. -/
  | parameter {scope outer name args argument keys}
    (hbound : Dictionary.find? scope.bindings name = some (w.schemaIn outer argument))
    (h : DenotesKeys w outer argument keys) :
    DenotesKeys w scope (.reference (.ident name) args) keys
  /-- The names of the properties of an object that has any. -/
  | keyof {scope type shape} (hobject : w.schemaIn scope type = .object shape)
    (hsome : shape.properties.isEmpty = false) :
    DenotesKeys w scope (.keyof type) (Dictionary.names shape.properties)

variable {w : Workspace} {scope : Scope} {type : TypeExpr} {keys : List String}

/-- Several types list what each of them lists. -/
theorem literalKeysOfAll_eq (types : List TypeExpr) :
    literalKeysOfAll types = types.flatMap literalKeys := by
  induction types with
  | nil => rfl
  | cons type rest ih => rw [literalKeysOfAll, ih, List.flatMap_cons]

/-- The listed keys are denoted. -/
theorem DenotesKeys.of_listed (h : w.DenotesKeys scope type keys) :
    ∀ key ∈ literalKeys type, key ∈ keys := by
  induction h with
  | literal hkey =>
      rw [literalKeys, hkey]
      exact fun _ hmem => hmem
  | union _ ih =>
      rw [literalKeys, literalKeysOfAll_eq]
      intro key hmem
      obtain ⟨member, hmember, hkey⟩ := List.mem_flatMap.mp hmem
      exact List.mem_flatMap.mpr ⟨member, hmember, ih member hmember key hkey⟩
  | paren _ ih =>
      rw [literalKeys]
      exact ih
  | aliasReference | parameter | keyof => exact fun _ hmem => absurd hmem List.not_mem_nil

/-- If a type lists its keys, the denoted ones are listed. -/
theorem DenotesKeys.listed (h : w.DenotesKeys scope type keys) (hlists : ListsKeys type) :
    ∀ key ∈ keys, key ∈ literalKeys type := by
  induction h with
  | literal hkey =>
      rw [literalKeys, hkey]
      exact fun _ hmem => hmem
  | union _ ih =>
      cases hlists with
      | union hmembers =>
          rw [literalKeys, literalKeysOfAll_eq]
          intro key hmem
          obtain ⟨member, hmember, hkey⟩ := List.mem_flatMap.mp hmem
          exact List.mem_flatMap.mpr
            ⟨member, hmember, ih member hmember (hmembers member hmember) key hkey⟩
  | paren _ ih =>
      cases hlists with
      | paren hinner =>
          rw [literalKeys]
          exact ih hinner
  | aliasReference | parameter | keyof => cases hlists

/-- An enumeration of texts accepts these. -/
theorem enumeration_accepts_iff {texts : List String} {s : String} :
    (Schema.enumeration .string (texts.map .string)).accepts (.string s) = true ↔ s ∈ texts := by
  have hholds : ∀ text, (Literal.string text).holds (.string s) = true ↔ s = text := by
    intro text
    exact beq_iff_eq
  rw [Schema.accepts, Kind.holds, Bool.true_and, List.any_map, List.any_eq_true]
  simp only [Function.comp_apply, hholds]
  exact exists_eq_right'

/-- A key is no missing value. -/
theorem DenotesKeys.not_undefined (h : w.DenotesKeys scope type keys) :
    isUndefined type = false := by
  cases h <;> rfl

/-- The schema of a key type accepts the keys that it denotes, and no other text. -/
theorem DenotesKeys.accepts_iff (h : w.DenotesKeys scope type keys) : ∀ s,
    (w.schemaIn scope type).accepts (.string s) = true ↔ s ∈ keys := by
  induction h with
  | @literal scope key value hkey =>
      intro s
      rw [schemaIn, schemaOf, literalSchema, hkey]
      exact @enumeration_accepts_iff [key] s
  | @union scope members keysOf hmembers ih =>
      intro s
      -- Null is all that a union may accept without one of its members accepting it.
      have hne : Json.string s ≠ .null := by
        intro h
        cases h
      rw [schemaIn, schemaOf, Schema.union_accepts_iff_of_ne_null hne, someAccepts_iff,
        List.mem_flatMap]
      constructor
      · rintro ⟨schema, hschema, haccepts⟩
        rw [definedSchemasOf_eq_map] at hschema
        obtain ⟨member, hmember, rfl⟩ := List.mem_map.mp hschema
        obtain ⟨hmember, -⟩ := List.mem_filter.mp hmember
        exact ⟨member, hmember, (ih member hmember s).mp haccepts⟩
      · rintro ⟨member, hmember, hs⟩
        exact ⟨_, mem_definedSchemasOf hmember (hmembers member hmember).not_undefined,
          (ih member hmember s).mpr hs⟩
  | paren _ ih =>
      rw [schemaIn, schemaOf]
      exact ih
  | aliasReference hrefers _ ih =>
      rw [schemaIn_aliasReference hrefers]
      exact ih
  | parameter hbound _ ih =>
      rw [schemaIn, schemaOf_bound hbound]
      exact ih
  | @keyof scope type shape hobject hsome =>
      intro s
      rw [schemaIn, schemaOf]
      show (keysSchema (w.schemaIn scope type)).accepts _ = true ↔ _
      rw [hobject, keysSchema, hsome]
      exact enumeration_accepts_iff

/-- `Pick<P, K>` -/
def picking (object keys : TypeExpr) : TypeExpr :=
  .reference (.ident "Pick") [object, keys]

/-- `Omit<P, K>` -/
def omitting (object keys : TypeExpr) : TypeExpr :=
  .reference (.ident "Omit") [object, keys]

/-- **Picked and omitted keys**: a type that denotes keys is read to a schema that accepts just
    these, but `Pick` and `Omit` honour the listed ones. These are denoted, and they are all if the
    type is written as a list of keys. The kept properties, with their schemas and whether they are
    required, and the kept members are those that the denoted keys ask for exactly if every denoted
    key that the object has is listed. -/
theorem picked_keys_honoured_iff (w : Workspace) (scope : Scope) (hscope : scope.Normal)
    (hpick : Dictionary.find? scope.bindings "Pick" = none)
    (homit : Dictionary.find? scope.bindings "Omit" = none)
    (object type : TypeExpr) (keys : List String) (hkeys : w.DenotesKeys scope type keys) :
    let listed := literalKeys type
    (∀ s, (w.schemaIn scope type).accepts (.string s) = true ↔ s ∈ keys) ∧
    (∀ key ∈ listed, key ∈ keys) ∧
    (ListsKeys type → ∀ key ∈ keys, key ∈ listed) ∧
    (∀ shape, w.schemaIn scope object = .object shape → ∃ picked rest,
      w.schemaIn scope (picking object type) = .object picked ∧
      w.schemaIn scope (omitting object type) = .object rest ∧
      let complete := ∀ n ∈ Dictionary.names shape.properties, n ∈ keys → n ∈ listed
      ((∀ n, picked.property? n = if n ∈ keys then shape.property? n else none) ↔ complete) ∧
      ((∀ n, rest.property? n = if n ∉ keys then shape.property? n else none) ↔ complete)) ∧
    let members := w.membersIn scope object
    let complete := ∀ m ∈ members, m.name ∈ keys → m.name ∈ listed
    (w.membersIn scope (picking object type) = members.filter (fun m => decide (m.name ∈ keys)) ↔
      complete) ∧
    (w.membersIn scope (omitting object type) = members.filter (fun m => decide (m.name ∉ keys)) ↔
      complete) := by
  intro listed
  have hlisted : ∀ key ∈ listed, key ∈ keys := hkeys.of_listed
  -- A test is right about a name exactly if the name is listed when it is denoted.
  have hkept : ∀ n, (listed.contains n = true ↔ n ∈ keys) ↔ (n ∈ keys → n ∈ listed) := by
    intro n
    rw [List.contains_iff_mem]
    exact ⟨Iff.mpr, fun h => ⟨hlisted n, h⟩⟩
  have hdropped : ∀ n, ((!listed.contains n) = true ↔ n ∉ keys) ↔ (n ∈ keys → n ∈ listed) := by
    intro n
    rw [← hkept n, Bool.not_eq_true', ← Bool.not_eq_true, not_iff_not]
  obtain ⟨hpicked, hpickedMembers⟩ :=
    w.reading_of_changed [] scope (show shapeChange? "Pick" = some .pick from rfl) object [type]
  obtain ⟨homitted, homittedMembers⟩ :=
    w.reading_of_changed [] scope (show shapeChange? "Omit" = some .omit from rfl) object [type]
  refine ⟨hkeys.accepts_iff, hlisted, hkeys.listed, fun shape hshape => ?_, ?_, ?_⟩
  · have hnames : (Dictionary.names shape.properties).Nodup := by
      have hnormal := w.schemaIn_normal hscope object
      rw [hshape] at hnormal
      exact (Schema.normal_object.mp hnormal).names.properties
    refine ⟨_, _, hpicked shape hpick hshape, homitted shape homit hshape, ?_, ?_⟩
    · rw [ShapeChange.applyTo, ObjectSchema.restrict_keeps_iff hnames]
      exact forall₂_congr fun n _ => hkept n
    · rw [ShapeChange.applyTo, ObjectSchema.restrict_keeps_iff hnames]
      exact forall₂_congr fun n _ => hdropped n
  · rw [show w.membersIn scope (picking object type) = _ from hpickedMembers, ShapeChange.apply]
    refine filter_eq_filter_iff.trans (forall₂_congr fun m _ => ?_)
    rw [← hkept m.name, Bool.eq_iff_iff, decide_eq_true_iff]
    rfl
  · rw [show w.membersIn scope (omitting object type) = _ from homittedMembers, ShapeChange.apply]
    refine filter_eq_filter_iff.trans (forall₂_congr fun m _ => ?_)
    rw [← hdropped m.name, Bool.eq_iff_iff, decide_eq_true_iff]
    rfl

/-! ## Keys behind an alias -/

/-- The alias `type Keys = 'id' | 'label'`. -/
def keysAlias : Source.AliasDecl :=
  ⟨⟨0, 1⟩, "Keys", [],
    ⟨.union [.literal (.string ⟨"id", true⟩), .literal (.string ⟨"label", true⟩)], []⟩⟩

/-- The type of things with an identifier and a size. -/
def sizedInterface : Source.InterfaceDecl :=
  { start := ⟨40, 2⟩
    name := "Sized"
    params := []
    parents := []
    members :=
      [ .property ⟨60, 2⟩ (.ident "id" false) false (some (.keyword .string)),
        .property ⟨72, 2⟩ (.ident "size" false) true (some (.keyword .number)) ]
    inner := [] }

/-- A module that declares these types. -/
def sizedModule : ParsedFile :=
  { path := ⟨[.root, .name "sized.ts"]⟩
    module := ⟨[.aliasDecl keysAlias, .interfaceDecl sizedInterface], []⟩
    discoverable := true }

/-- The file of that module. -/
def sizedFile : SourceFile :=
  Program.placed ⟨[.root]⟩ sizedModule 0

/-- The workspace of that file alone. -/
def sizedWorkspace : Workspace :=
  .ofProgram (.ofParsed ⟨[.root]⟩ [sizedModule]) {}

/-- The declaration of sized things. -/
def sizedDeclaration : Declaration :=
  ⟨"Sized", sizedFile, .interfaceNode sizedInterface, [⟨40, 2⟩], ⟨40, 2⟩⟩

/-- The type of sized things. -/
def sizedType : TypeExpr :=
  .reference (.ident "Sized") []

/-- The type of the keys. -/
def keysType : TypeExpr :=
  .reference (.ident "Keys") []

/-- The keys denote two names. -/
theorem keys_denoted :
    sizedWorkspace.DenotesKeys (.ofFile sizedFile) keysType ["id", "label"] := by
  have hrefers : sizedWorkspace.RefersToAlias (.ofFile sizedFile) "Keys"
      ⟨"Keys", sizedFile, .aliasNode keysAlias, [⟨0, 1⟩], ⟨0, 1⟩⟩ keysAlias :=
    ⟨rfl, rfl, type?_placed _ _ _ rfl, rfl, not_recursive_of_references_nil rfl⟩
  refine .aliasReference hrefers ?_
  refine @DenotesKeys.union _ _ _ literalKeys fun member hmember => ?_
  rcases List.mem_cons.mp hmember with rfl | hmember
  · exact .literal rfl
  · rw [List.mem_singleton.mp hmember]
    exact .literal rfl

/-- A sized thing is an object with two properties. -/
theorem exists_sized_schema : ∃ shape,
    sizedWorkspace.schemaIn (.ofFile sizedFile) sizedType = .object shape ∧
      Dictionary.names shape.properties = ["id", "size"] := by
  have htype : sizedWorkspace.type? sizedFile "Sized" = some sizedDeclaration :=
    type?_placed _ _ _ rfl
  have hexpand := (expander_hands_down_path (resolve?_declares htype) []).1 []
  refine ⟨_, (schemaOf_named rfl rfl htype _).trans hexpand, rfl⟩

/-- None of the two keys is listed, so `Pick<Sized, Keys>` does not keep the identifier. -/
theorem aliased_keys_not_picked :
    sizedWorkspace.DenotesKeys (.ofFile sizedFile) keysType ["id", "label"] ∧
      ∃ shape picked,
        sizedWorkspace.schemaIn (.ofFile sizedFile) sizedType = .object shape ∧
        sizedWorkspace.schemaIn (.ofFile sizedFile) (picking sizedType keysType) =
          .object picked ∧
        ¬∀ n, picked.property? n =
          if n ∈ ["id", "label"] then shape.property? n else none := by
  obtain ⟨shape, hshape, hnames⟩ := exists_sized_schema
  obtain ⟨-, -, -, hobject, -⟩ := picked_keys_honoured_iff sizedWorkspace (.ofFile sizedFile)
    (.ofFile sizedFile) rfl rfl sizedType keysType _ keys_denoted
  obtain ⟨picked, rest, hpicked, -, hiff, -⟩ := hobject shape hshape
  refine ⟨keys_denoted, shape, picked, hshape, hpicked, fun hall => ?_⟩
  have hid := hiff.mp hall "id" (by rw [hnames]; exact List.mem_cons_self) List.mem_cons_self
  exact absurd hid List.not_mem_nil

end Workspace

end ElementCatalog
