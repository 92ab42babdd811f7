import ElementCatalog.Component.Inference
import ElementCatalog.Proofs.ExportSearch
import ElementCatalog.Proofs.NormalUnions
import ElementCatalog.Types.WrittenKeys

/-!
# Kept properties — what every way to make schemas keeps holds of all schemas

Toward: a property of schemas that is kept where schemas are made of others holds of the schema of
every type, in a scope whose type parameters stand for schemas with the property.  The names that
objects are given may be restricted: only names that keys are read as are ever written.  The route:

* the ways of making schemas that are put together of others keep the property, too;
* a type is read to such a schema by induction on the type, given that declarations are expanded to
  such schemas;
* declarations are, by induction on the depth to which they are expanded;
* literal data is, by induction on the expression, given that the types in it are.
-/

namespace ElementCatalog

open Source (TypeExpr TypeMember TypeParam TypeKeyword EnumMember WrittenKey Expr Property
  UnaryOperator)
open ElementCatalog.Types

/-- The names that keys are read as are allowed. -/
def Source.AllowedKeys (allowed : String → Prop) (keys : List WrittenKey) : Prop :=
  ∀ k ∈ keys, ∀ name, k.readName? = some name → allowed name

/-- Without restrictions all keys are allowed. -/
theorem Source.AllowedKeys.any (keys : List WrittenKey) : AllowedKeys (fun _ => True) keys :=
  fun _ _ _ _ => trivial

/-- All keys of two lists are allowed. -/
theorem Source.AllowedKeys.of_append {allowed : String → Prop} {keys keys' : List WrittenKey}
    (h : AllowedKeys allowed (keys ++ keys')) :
    AllowedKeys allowed keys ∧ AllowedKeys allowed keys' :=
  ⟨fun k hk => h k (List.mem_append_left _ hk), fun k hk => h k (List.mem_append_right _ hk)⟩

/-- All keys of each item are allowed. -/
theorem Source.AllowedKeys.of_flatMap {allowed : String → Prop} {α : Type} {items : List α}
    {keys : α → List WrittenKey} (h : AllowedKeys allowed (items.flatMap keys)) {item : α}
    (hitem : item ∈ items) : AllowedKeys allowed (keys item) :=
  fun k hk => h k (List.mem_flatMap.mpr ⟨item, hitem, hk⟩)

open Source (AllowedKeys)

/-- A property of schemas that every way to make schemas keeps, where objects are given only names
    that are allowed. -/
structure Kept (allowed : String → Prop) (P : Schema → Prop) : Prop where
  unconstrained : P .unconstrained
  primitive : ∀ kind dateTime, P (.primitive kind dateTime)
  literal : ∀ value, P (.literal value)
  array : ∀ {items}, P (.array items) ↔ P items
  union : ∀ {members}, (∀ member ∈ members, P member) → P (.union members)
  empty : P (.object .empty)
  insert : ∀ {shape name schema}, P (.object shape) → allowed name → P schema → ∀ required,
    P (.object (shape.insert name schema required))
  properties : ∀ {shape}, P (.object shape) → ∀ p ∈ shape.properties, allowed p.1 ∧ P p.2
  nothingRequired : ∀ {shape}, P (.object shape) → P (.object { shape with required := [] })
  allRequired : ∀ {shape}, P (.object shape) →
    P (.object { shape with required := Dictionary.names shape.properties })
  keys : ∀ {schema}, P schema → P (keysSchema schema)

namespace Kept

variable {allowed : String → Prop} {P : Schema → Prop} (h : Kept allowed P)
include h

/-! ## Objects -/

/-- Writing properties with allowed names one after another. -/
theorem insertAll {object : ObjectSchema} (hobject : P (.object object))
    {entries : List PropertyEntry} (hentries : ∀ e ∈ entries, allowed e.name ∧ P e.schema) :
    P (.object (object.insertAll entries)) :=
  List.foldlRecOn (motive := fun object : ObjectSchema => P (.object object)) entries _ hobject
    fun _ hobject e he => h.insert hobject (hentries e he).1 (hentries e he).2 e.required

/-- The entries of an object have allowed names and the property. -/
theorem entries {object : ObjectSchema} (hobject : P (.object object)) :
    ∀ e ∈ object.entries, allowed e.name ∧ P e.schema := by
  intro e he
  obtain ⟨p, hp, heq⟩ := List.mem_map.mp he
  rw [← heq]
  exact h.properties hobject p hp

/-- One object over another. -/
theorem merge {object other : ObjectSchema} (hobject : P (.object object))
    (hother : P (.object other)) : P (.object (object.merge other)) := by
  rw [ObjectSchema.merge_eq_insertAll]
  exact h.insertAll hobject (h.entries hother)

/-- Several objects, one over another. -/
theorem foldl_merge {object : ObjectSchema} (hobject : P (.object object))
    {others : List ObjectSchema} (hothers : ∀ o ∈ others, P (.object o)) :
    P (.object (others.foldl ObjectSchema.merge object)) :=
  List.foldlRecOn (motive := fun object : ObjectSchema => P (.object object)) others _ hobject
    fun _ hobject o ho => h.merge hobject (hothers o ho)

/-- What a test leaves of an object. -/
theorem restrict {object : ObjectSchema} (hobject : P (.object object)) (keep : String → Bool) :
    P (.object (object.restrict keep)) := by
  rw [ObjectSchema.restrict_eq_insertAll]
  exact h.insertAll h.empty fun e he => h.entries hobject e (List.mem_filter.mp he).1

omit h in
/-- The object of a schema. -/
theorem object? {schema : Schema} (hschema : P schema) {shape : ObjectSchema}
    (hshape : Types.object? schema = some shape) : P (.object shape) := by
  cases schema with
  | object other =>
      cases hshape
      exact hschema
  | _ => cases hshape

/-! ## Ways of making schemas -/

/-- The schemas of built-in types. -/
theorem keywordSchema (keyword : TypeKeyword) : P (Types.keywordSchema keyword) := by
  cases keyword with
  | object => exact h.empty
  | other => exact h.unconstrained
  | _ => exact h.primitive _ false

/-- The schemas of literals that are written as types. -/
theorem literalSchema (value : Source.TypeLiteral) : P (Types.literalSchema value) := by
  cases value with
  | string value =>
      rw [Types.literalSchema]
      cases value.value? with
      | some text => exact h.literal _
      | none => exact h.primitive .string false
  | number | boolean => exact h.literal _
  | bigint | template => exact h.primitive _ false

omit h in
/-- A first choice satisfies a property if it does when it is made, and the others do otherwise. -/
theorem of_choice {α : Type} {Q : α → Prop} {condition : Prop} [Decidable condition] {first : α}
    {others : Option α} (hfirst : Q first) (hothers : ∀ a, others = some a → Q a) :
    ∀ a, (if condition then some first else others) = some a → Q a := by
  intro a h
  by_cases hcondition : condition
  · rw [if_pos hcondition] at h
    cases h
    exact hfirst
  · rw [if_neg hcondition] at h
    exact hothers a h

/-- Where a well-known name has a schema of its own, the schema has the property. -/
theorem wellKnown?_fixed (name : String) : ∀ rule, wellKnown? name = some rule →
    ∀ schema, rule = .fixed schema → P schema := by
  have hfixed : ∀ {known : Schema}, P known → ∀ schema, WellKnown.fixed known = .fixed schema →
      P schema := by
    intro known hknown schema heq
    cases heq
    exact hknown
  rw [wellKnown?]
  refine of_choice (fun _ h => nomatch h) (of_choice (hfixed (h.primitive .string true)) ?_)
  refine of_choice (hfixed h.empty) (of_choice (hfixed (h.primitive .string false)) ?_)
  refine of_choice (hfixed (h.primitive .number false)) ?_
  refine of_choice (hfixed (h.primitive .boolean false)) (of_choice (hfixed h.unconstrained) ?_)
  -- The other names change their argument.
  refine of_choice (fun _ h => nomatch h) (of_choice (fun _ h => nomatch h) ?_)
  refine of_choice (fun _ h => nomatch h) (of_choice (fun _ h => nomatch h) ?_)
  exact of_choice (fun _ h => nomatch h) fun _ h => nomatch h

omit h in
/-- Changing the objects among schemas. -/
theorem onObject {change : ObjectSchema → ObjectSchema}
    (hchange : ∀ shape : ObjectSchema, P (.object shape) → P (.object (change shape)))
    {schema : Schema} (hschema : P schema) : P (Types.onObject change schema) := by
  cases schema with
  | object shape => exact hchange shape hschema
  | _ => exact hschema

/-- What a well-known name makes of a schema. -/
theorem wellKnown?_apply {name : String} {rule : WellKnown} (hrule : wellKnown? name = some rule)
    {first : Schema} (hfirst : P first) (keys : List String) : P (rule.apply first keys) := by
  cases rule with
  | fixed schema => exact h.wellKnown?_fixed name _ hrule schema rfl
  | listOfFirst => exact h.array.mpr hfirst
  | first => exact hfirst
  | withNothingRequired => exact onObject (fun _ hshape => h.nothingRequired hshape) hfirst
  | withAllRequired => exact onObject (fun _ hshape => h.allRequired hshape) hfirst
  | pick => exact onObject (fun _ hshape => h.restrict hshape _) hfirst
  | _ => exact onObject (fun _ hshape => h.restrict hshape _) hfirst

/-- The schema of a tuple. -/
theorem tupleSchema {elements : List Schema} (helements : ∀ e ∈ elements, P e) :
    P (Types.tupleSchema elements) := by
  rw [Types.tupleSchema]
  split
  · exact h.array.mpr h.unconstrained
  · exact h.array.mpr (h.union helements)

/-- The schema of an element that stands for the rest of a tuple. -/
theorem restSchema {schema : Schema} (hschema : P schema) : P (Types.restSchema schema) := by
  cases schema with
  | array items => exact h.array.mp hschema
  | _ => exact hschema

/-- The schema of an intersection. -/
theorem intersectionSchema {members : List Schema} (hmembers : ∀ member ∈ members, P member) :
    P (Types.intersectionSchema members) := by
  rw [Types.intersectionSchema]
  cases hobjects : members.mapM Types.object? with
  | none => exact h.unconstrained
  | some objects =>
      refine h.foldl_merge h.empty fun shape hshape => ?_
      obtain ⟨member, hmember, hobject⟩ := exists_item_of_mapM hobjects hshape
      exact object? (hmembers member hmember) hobject

/-- The schema of one property, or of an item. -/
theorem indexedSchema {schema : Schema} (hschema : P schema) (index : TypeExpr) :
    P (Types.indexedSchema schema index) := by
  rw [Types.indexedSchema.eq_def]
  split
  · rename_i shape key
    cases hfound : key.value?.bind (Dictionary.find? shape.properties) with
    | none => exact h.unconstrained
    | some found =>
        obtain ⟨name, -, hname⟩ := Option.bind_eq_some_iff.mp hfound
        exact (h.properties hschema _ (Dictionary.mem_of_find? hname)).2
  · exact h.array.mp hschema
  · exact h.unconstrained

/-- The schema of an enumeration. -/
theorem enumerationSchema (members : List EnumMember) : P (Types.enumerationSchema members) := by
  rw [Types.enumerationSchema]
  split
  · exact h.unconstrained
  · refine h.union fun schema hschema => ?_
    obtain ⟨member, -, heq⟩ := List.mem_map.mp hschema
    rw [← heq]
    exact h.literal _

end Kept

/-! ## Types -/

/-- What the type parameters stand for has the property. -/
def Scope.All (P : Schema → Prop) (scope : Scope) : Prop :=
  ∀ name schema, Dictionary.find? scope.bindings name = some schema → P schema

variable {P : Schema → Prop}

/-- A file without type parameters binds nothing. -/
theorem Scope.All.ofFile (file : SourceFile) : (Scope.ofFile file).All P :=
  fun _ _ h => nomatch h

/-- Binding a type parameter to a schema with the property. -/
theorem Scope.All.bind {scope : Scope} (h : scope.All P) (name : String) {schema : Schema}
    (hschema : P schema) : (scope.bind name schema).All P := by
  intro other found hfound
  rw [Scope.bind, Dictionary.find?_set] at hfound
  by_cases hname : other = name
  · rw [if_pos hname] at hfound
    cases hfound
    exact hschema
  · rw [if_neg hname] at hfound
    exact h other found hfound

/-- Declared types whose arguments have the property are expanded to schemas with the property. -/
def Workspace.ExpandsTo (w : Workspace) (P : Schema → Prop) (expand : Expand) : Prop :=
  ∀ d, w.Declares .type d → ∀ args, (∀ arg ∈ args, P arg) → P (expand d args)

namespace Kept

section Types

variable {allowed : String → Prop} {w : Workspace} {expand : Expand} {scope : Scope}

mutual

/-- The schema of a type has the property. -/
theorem schemaOf (h : Kept allowed P) (hexpand : w.ExpandsTo P expand) (hscope : scope.All P) :
    ∀ type : TypeExpr, AllowedKeys allowed type.writtenKeys → P (schemaOf w expand scope type)
  | .keyword keyword, _ => by
      rw [ElementCatalog.schemaOf]
      exact h.keywordSchema keyword
  | .reference (.ident name) args, hkeys => by
      rw [TypeExpr.writtenKeys] at hkeys
      rw [ElementCatalog.schemaOf]
      cases hbound : Dictionary.find? scope.bindings name with
      | some bound => exact hscope name bound hbound
      | none =>
          cases hknown : wellKnown? name with
          | some rule =>
              exact h.wellKnown?_apply hknown (firstSchema h hexpand hscope args hkeys) _
          | none =>
              cases hd : w.type? scope.file name with
              | some d =>
                  exact hexpand d (Workspace.resolve?_declares hd) _
                    (schemasOf h hexpand hscope args hkeys)
              | none => exact h.unconstrained
  | .reference (.qualified (.ident outer) name) args, hkeys => by
      rw [TypeExpr.writtenKeys] at hkeys
      rw [ElementCatalog.schemaOf]
      cases enumMembers? (w.type? scope.file outer) with
      | some members =>
          dsimp only
          cases memberValue? members name with
          | some value => exact h.literal value
          | none => exact h.unconstrained
      | none =>
          cases hd : w.qualifiedType? scope.file outer name with
          | some d =>
              exact hexpand d (Workspace.qualifiedType?_declares hd) _
                (schemasOf h hexpand hscope args hkeys)
          | none => exact h.unconstrained
  | .reference (.qualified (.qualified _ _) _) _, _ => by
      rw [ElementCatalog.schemaOf]
      exact h.unconstrained
  | .literal value, _ => by
      rw [ElementCatalog.schemaOf]
      exact h.literalSchema value
  | .object members, hkeys => by
      rw [TypeExpr.writtenKeys] at hkeys
      rw [ElementCatalog.schemaOf]
      exact h.insertAll h.empty (entriesOf h hexpand hscope members hkeys)
  | .array items, hkeys => by
      rw [TypeExpr.writtenKeys] at hkeys
      rw [ElementCatalog.schemaOf]
      exact h.array.mpr (schemaOf h hexpand hscope items hkeys)
  | .tuple elements, hkeys => by
      rw [TypeExpr.writtenKeys] at hkeys
      rw [ElementCatalog.schemaOf]
      exact h.tupleSchema (schemasOf h hexpand hscope elements hkeys)
  | .optional type, hkeys => by
      rw [TypeExpr.writtenKeys] at hkeys
      rw [ElementCatalog.schemaOf]
      exact schemaOf h hexpand hscope type hkeys
  | .rest type, hkeys => by
      rw [TypeExpr.writtenKeys] at hkeys
      rw [ElementCatalog.schemaOf]
      exact h.restSchema (schemaOf h hexpand hscope type hkeys)
  | .union members, hkeys => by
      rw [TypeExpr.writtenKeys] at hkeys
      rw [ElementCatalog.schemaOf]
      exact h.union (definedSchemasOf h hexpand hscope members hkeys)
  | .intersection members, hkeys => by
      rw [TypeExpr.writtenKeys] at hkeys
      rw [ElementCatalog.schemaOf]
      exact h.intersectionSchema (schemasOf h hexpand hscope members hkeys)
  | .paren type, hkeys => by
      rw [TypeExpr.writtenKeys] at hkeys
      rw [ElementCatalog.schemaOf]
      exact schemaOf h hexpand hscope type hkeys
  | .readonly type, hkeys => by
      rw [TypeExpr.writtenKeys] at hkeys
      rw [ElementCatalog.schemaOf]
      exact schemaOf h hexpand hscope type hkeys
  | .keyof type, hkeys => by
      rw [TypeExpr.writtenKeys] at hkeys
      rw [ElementCatalog.schemaOf]
      exact h.keys (schemaOf h hexpand hscope type hkeys)
  | .indexed object index, hkeys => by
      rw [TypeExpr.writtenKeys] at hkeys
      rw [ElementCatalog.schemaOf]
      exact h.indexedSchema (schemaOf h hexpand hscope object hkeys) index
  | .mapped, _ => by
      rw [ElementCatalog.schemaOf]
      exact h.empty
  | .predicate, _ => by
      rw [ElementCatalog.schemaOf]
      exact h.primitive .boolean false
  | .function _, _ => by
      rw [ElementCatalog.schemaOf]
      exact h.unconstrained
  | .other, _ => by
      rw [ElementCatalog.schemaOf]
      exact h.unconstrained

/-- The schemas of several types have the property. -/
theorem schemasOf (h : Kept allowed P) (hexpand : w.ExpandsTo P expand) (hscope : scope.All P) :
    ∀ types : List TypeExpr, AllowedKeys allowed (Source.writtenKeysOfAll types) →
      ∀ schema ∈ schemasOf w expand scope types, P schema
  | [], _ => fun _ h => nomatch h
  | type :: rest, hkeys => by
      rw [Source.writtenKeysOfAll] at hkeys
      rw [ElementCatalog.schemasOf, List.forall_mem_cons]
      exact ⟨schemaOf h hexpand hscope type hkeys.of_append.1,
        schemasOf h hexpand hscope rest hkeys.of_append.2⟩

/-- The schemas of the types that stand for a value have the property. -/
theorem definedSchemasOf (h : Kept allowed P) (hexpand : w.ExpandsTo P expand)
    (hscope : scope.All P) : ∀ types : List TypeExpr,
      AllowedKeys allowed (Source.writtenKeysOfAll types) →
        ∀ schema ∈ definedSchemasOf w expand scope types, P schema
  | [], _ => fun _ h => nomatch h
  | type :: rest, hkeys => by
      rw [Source.writtenKeysOfAll] at hkeys
      rw [ElementCatalog.definedSchemasOf]
      split
      · exact definedSchemasOf h hexpand hscope rest hkeys.of_append.2
      · rw [List.forall_mem_cons]
        exact ⟨schemaOf h hexpand hscope type hkeys.of_append.1,
          definedSchemasOf h hexpand hscope rest hkeys.of_append.2⟩

/-- The schema of the first of several types has the property. -/
theorem firstSchema (h : Kept allowed P) (hexpand : w.ExpandsTo P expand) (hscope : scope.All P) :
    ∀ types : List TypeExpr, AllowedKeys allowed (Source.writtenKeysOfAll types) →
      P (firstSchema w expand scope types)
  | [], _ => h.unconstrained
  | type :: _, hkeys => by
      rw [Source.writtenKeysOfAll] at hkeys
      rw [ElementCatalog.firstSchema]
      exact schemaOf h hexpand hscope type hkeys.of_append.1

/-- The schema of a declared type has the property. -/
theorem declaredSchema (h : Kept allowed P) (hexpand : w.ExpandsTo P expand)
    (hscope : scope.All P) : ∀ type : Option TypeExpr,
      AllowedKeys allowed (Source.writtenKeysOfDeclared type) →
        P (declaredSchema w expand scope type)
  | none, _ => h.unconstrained
  | some type, hkeys => by
      rw [Source.writtenKeysOfDeclared] at hkeys
      rw [ElementCatalog.declaredSchema]
      exact schemaOf h hexpand hscope type hkeys

/-- The property that a member of an object type declares has an allowed name and such a schema. -/
theorem entryOf (h : Kept allowed P) (hexpand : w.ExpandsTo P expand) (hscope : scope.All P) :
    ∀ member : TypeMember, AllowedKeys allowed member.writtenKeys → ∀ e : PropertyEntry,
      entryOf w expand scope member = some e → allowed e.name ∧ P e.schema
  | .property _ key optional type, hkeys, e, he => by
      rw [TypeMember.writtenKeys] at hkeys
      rw [ElementCatalog.entryOf] at he
      obtain ⟨name, hname, heq⟩ := Option.map_eq_some_iff.mp he
      rw [← heq]
      exact ⟨hkeys _ List.mem_cons_self name hname, declaredSchema h hexpand hscope type
        fun k hk => hkeys k (List.mem_cons_of_mem _ hk)⟩
  | .getter _ key type, hkeys, e, he => by
      rw [TypeMember.writtenKeys] at hkeys
      rw [ElementCatalog.entryOf] at he
      obtain ⟨name, hname, heq⟩ := Option.map_eq_some_iff.mp he
      rw [← heq]
      exact ⟨hkeys _ List.mem_cons_self name hname, declaredSchema h hexpand hscope type
        fun k hk => hkeys k (List.mem_cons_of_mem _ hk)⟩
  | .method _ _ _ _, _, _, he => nomatch he
  | .other, _, _, he => nomatch he

/-- The properties that members of an object type declare have allowed names and such schemas. -/
theorem entriesOf (h : Kept allowed P) (hexpand : w.ExpandsTo P expand) (hscope : scope.All P) :
    ∀ members : List TypeMember, AllowedKeys allowed (Source.writtenKeysOfMembers members) →
      ∀ e ∈ entriesOf w expand scope members, allowed e.name ∧ P e.schema
  | [], _ => fun _ h => absurd h List.not_mem_nil
  | member :: rest, hkeys => by
      rw [Source.writtenKeysOfMembers] at hkeys
      rw [ElementCatalog.entriesOf, List.forall_mem_append]
      refine ⟨fun e he => ?_, entriesOf h hexpand hscope rest hkeys.of_append.2⟩
      exact entryOf h hexpand hscope member hkeys.of_append.1 e (Option.mem_toList.mp he)

end

/-- Type parameters that are bound to arguments or defaults stand for schemas with the property. -/
theorem bindParams (h : Kept allowed P) (hexpand : w.ExpandsTo P expand)
    (params : List TypeParam) : ∀ {args : List Schema} {scope : Scope},
      AllowedKeys allowed (Source.writtenKeysOfParams params) → (∀ arg ∈ args, P arg) →
        scope.All P → (bindParams w expand params args scope).All P := by
  induction params with
  | nil => exact fun _ _ hscope => hscope
  | cons param rest ih =>
      intro args scope hkeys hargs hscope
      obtain ⟨hdefault, hrest⟩ := AllowedKeys.of_append hkeys
      cases args with
      | nil =>
          exact ih hrest hargs
            (hscope.bind _ (h.declaredSchema hexpand hscope param.default hdefault))
      | cons arg others =>
          rw [List.forall_mem_cons] at hargs
          exact ih hrest hargs.2 (hscope.bind _ hargs.1)

/-! ## Declarations -/

/-- The schema of an interface has the property. -/
theorem interfaceSchema (h : Kept allowed P) (hexpand : w.ExpandsTo P expand)
    (hscope : scope.All P) {decl : Source.InterfaceDecl}
    (hparents : ∀ parent ∈ decl.parents,
      AllowedKeys allowed (Source.writtenKeysOfAll (parent.args.map (·.type))))
    (hmembers : AllowedKeys allowed (Source.writtenKeysOfMembers decl.members)) :
    P (interfaceSchema w expand scope decl) := by
  refine h.merge (h.foldl_merge h.empty ?_)
    (h.insertAll h.empty (h.entriesOf hexpand hscope decl.members hmembers))
  intro shape hshape
  obtain ⟨parent, hparent, hread⟩ := List.mem_filterMap.mp hshape
  obtain ⟨name, -, hobject⟩ := Option.bind_eq_some_iff.mp hread
  refine object? (h.schemaOf hexpand hscope _ ?_) hobject
  rw [TypeExpr.writtenKeys]
  exact hparents parent hparent

/-- The key of a public field of a class names it. -/
theorem allowed_of_mem_classFields {value : Source.ClassDef}
    (hkeys : AllowedKeys allowed (value.members.flatMap Source.ClassMember.writtenKeys))
    {field : ClassField} (hfield : field ∈ classFields value) : allowed field.name ∧
      AllowedKeys allowed (Source.writtenKeysOfDeclared field.type) := by
  obtain ⟨member, hmember, hread⟩ := List.mem_filterMap.mp hfield
  have hkeys := hkeys.of_flatMap hmember
  cases member with
  | field start modifiers decorators key type init =>
      rw [ClassField.ofMember?] at hread
      rw [Source.ClassMember.writtenKeys] at hkeys
      split at hread
      · next hpublic =>
          rw [if_pos hpublic] at hkeys
          obtain ⟨name, hname, rfl⟩ := Option.map_eq_some_iff.mp hread
          exact ⟨hkeys _ List.mem_cons_self name hname,
            fun k hk => hkeys k (List.mem_cons_of_mem _ hk)⟩
      · cases hread
  | _ => cases hread

/-- The schema of the instances of a class has the property. -/
theorem classSchema (h : Kept allowed P) (hexpand : w.ExpandsTo P expand) (hscope : scope.All P)
    {value : Source.ClassDef}
    (hkeys : AllowedKeys allowed (value.members.flatMap Source.ClassMember.writtenKeys)) :
    P (classSchema w expand scope value) := by
  refine h.insertAll h.empty fun e he => ?_
  obtain ⟨field, hfield, heq⟩ := List.mem_map.mp he
  rw [← heq]
  obtain ⟨hname, htype⟩ := allowed_of_mem_classFields hkeys hfield
  exact ⟨hname, h.declaredSchema hexpand hscope field.type htype⟩

/-- The keys of the type parameters of an interface, of its clauses and of its members. -/
theorem allowed_of_interface {d : Declaration} (hkeys : AllowedKeys allowed d.writtenKeys)
    {decl : Source.InterfaceDecl} (hnode : d.node = .interfaceNode decl) :
    AllowedKeys allowed (Source.writtenKeysOfParams decl.params) ∧
      (∀ parent ∈ decl.parents,
        AllowedKeys allowed (Source.writtenKeysOfAll (parent.args.map (·.type)))) ∧
      AllowedKeys allowed (Source.writtenKeysOfMembers decl.members) := by
  rw [Declaration.writtenKeys, hnode] at hkeys
  obtain ⟨hfront, hmembers⟩ := AllowedKeys.of_append hkeys
  obtain ⟨hparams, hparents⟩ := hfront.of_append
  exact ⟨hparams, fun parent hparent => hparents.of_flatMap hparent, hmembers⟩

/-- The keys of the type parameters of an alias and of its type. -/
theorem allowed_of_alias {d : Declaration} (hkeys : AllowedKeys allowed d.writtenKeys)
    {decl : Source.AliasDecl} (hnode : d.node = .aliasNode decl) :
    AllowedKeys allowed (Source.writtenKeysOfParams decl.params) ∧
      AllowedKeys allowed decl.type.type.writtenKeys := by
  rw [Declaration.writtenKeys, hnode] at hkeys
  exact AllowedKeys.of_append hkeys

/-- The keys of the type parameters of a class and of its members. -/
theorem allowed_of_class {d : Declaration} (hkeys : AllowedKeys allowed d.writtenKeys)
    {value : Source.ClassDef} (hnode : d.node = .classNode value) :
    AllowedKeys allowed (Source.writtenKeysOfParams value.params) ∧
      AllowedKeys allowed (value.members.flatMap Source.ClassMember.writtenKeys) := by
  rw [Declaration.writtenKeys, hnode] at hkeys
  exact AllowedKeys.of_append hkeys

/-- The schema of a declaration has the property. -/
theorem declarationSchema (h : Kept allowed P) (hexpand : w.ExpandsTo P expand) {d : Declaration}
    (hkeys : AllowedKeys allowed d.writtenKeys) {args : List Schema} (hargs : ∀ arg ∈ args, P arg) :
    P (declarationSchema w expand d args) := by
  have hbound {params : List TypeParam}
      (hparams : AllowedKeys allowed (Source.writtenKeysOfParams params)) :
      (ElementCatalog.bindParams w expand params args (.ofFile d.file)).All P :=
    h.bindParams hexpand params hparams hargs (.ofFile d.file)
  rw [Types.declarationSchema]
  cases hnode : d.node with
  | interfaceNode decl =>
      obtain ⟨hparams, hparents, hmembers⟩ := allowed_of_interface hkeys hnode
      exact h.interfaceSchema hexpand (hbound hparams) hparents hmembers
  | aliasNode decl =>
      obtain ⟨hparams, htype⟩ := allowed_of_alias hkeys hnode
      exact h.schemaOf hexpand (hbound hparams) decl.type.type htype
  | classNode value =>
      obtain ⟨hparams, hmembers⟩ := allowed_of_class hkeys hnode
      exact h.classSchema hexpand (hbound hparams) hmembers
  | enumNode members => exact h.enumerationSchema members
  | functionNode | variableNode => exact h.unconstrained

/-- To every depth, and whatever is open, declarations with allowed keys are expanded to schemas
    with the property. -/
theorem expanderWithin (h : Kept allowed P)
    (hkeys : ∀ d, w.Declares .type d → AllowedKeys allowed d.writtenKeys) (depth : Nat) :
    ∀ opened : List DeclarationKey, w.ExpandsTo P (expanderWithin w depth opened).schema := by
  induction depth with
  | zero => exact fun _ _ _ _ _ => h.unconstrained
  | succ depth ih =>
      intro opened d hd args hargs
      show P (if opened.contains d.key then Schema.unconstrained
        else Types.declarationSchema w (Types.expanderWithin w depth (d.key :: opened)).schema d
          args)
      split
      · exact h.unconstrained
      · exact h.declarationSchema (ih _) (hkeys d hd) hargs

/-- **Kept properties hold of all types**: in a workspace whose declarations have allowed keys, and
    in a scope whose type parameters stand for schemas with the property, every type with allowed
    keys is read to a schema with the property. -/
theorem schemaIn (h : Kept allowed P)
    (hkeys : ∀ d, w.Declares .type d → AllowedKeys allowed d.writtenKeys) (hscope : scope.All P)
    {type : TypeExpr} (htype : AllowedKeys allowed type.writtenKeys) : P (w.schemaIn scope type) :=
  h.schemaOf (h.expanderWithin hkeys _ _) hscope type htype

end Types

/-! ## Literal data -/

section Values

variable {allowed : String → Prop} {read : TypeExpr → Schema}

/-- A sign before a literal leaves a number. -/
theorem inferred?_unary {operator : UnaryOperator} {operand : Expr} {schema : Schema}
    (h : inferred? read (.unary operator operand) = some schema) : schema = .number := by
  cases operator with
  | minus | plus =>
      cases operand with
      | number value => exact (Option.some.inj h).symm
      | _ => cases h
  | _ => cases h

/-- The first of several elements is passed over or gives the schema of the items. -/
theorem inferredItems_cons (element : Expr) (rest : List Expr) :
    inferredItems read (element :: rest) = inferredItems read rest ∨
      inferredItems read (element :: rest) = (inferred? read element).getD .unconstrained := by
  cases element with
  | spread | hole => exact Or.inl rfl
  | _ => exact Or.inr rfl

/-- A schema that may be missing, where everything is allowed without one. -/
theorem getD (h : Kept allowed P) {found : Option Schema}
    (hfound : ∀ schema, found = some schema → P schema) : P (found.getD .unconstrained) := by
  cases found with
  | none => exact h.unconstrained
  | some schema => exact hfound schema rfl

/-- Writing a field with an allowed name. -/
theorem setField (h : Kept allowed P) {entries : Dictionary Schema}
    (hentries : P (.object ⟨entries, []⟩)) {name : String} (hname : allowed name) {schema : Schema}
    (hschema : P schema) : P (.object ⟨Dictionary.set entries name schema, []⟩) :=
  h.insert hentries hname hschema false

mutual

/-- The schema of literal data has the property if those of the types in it have. -/
theorem inferred? (h : Kept allowed P)
    (hread : ∀ type, AllowedKeys allowed type.writtenKeys → P (read type)) : ∀ e : Expr,
      AllowedKeys allowed e.writtenKeys → ∀ schema, inferred? read e = some schema → P schema
  | .asType _ type, hkeys, _, he => by
      rw [Expr.writtenKeys] at hkeys
      rw [ElementCatalog.inferred?] at he
      cases he
      exact hread _ hkeys
  | .satisfies inner _, hkeys, schema, he | .asConst inner, hkeys, schema, he
  | .nonNull inner, hkeys, schema, he | .paren inner, hkeys, schema, he => by
      rw [Expr.writtenKeys] at hkeys
      rw [ElementCatalog.inferred?] at he
      exact inferred? h hread inner hkeys schema he
  | .object properties, hkeys, _, he => by
      rw [Expr.writtenKeys] at hkeys
      rw [ElementCatalog.inferred?] at he
      cases he
      exact inferredEntries h hread properties hkeys h.empty
  | .array elements, hkeys, _, he => by
      rw [Expr.writtenKeys] at hkeys
      rw [ElementCatalog.inferred?] at he
      cases he
      exact h.array.mpr (inferredItems h hread elements hkeys)
  | .unary operator operand, _, schema, he => by
      rw [inferred?_unary he]
      exact h.primitive .number false
  | .string _, _, _, he | .number _, _, _, he | .bigint, _, _, he | .boolean _, _, _, he
  | .template _ _, _, _, he => by
      rw [ElementCatalog.inferred?] at he
      cases he
      exact h.primitive _ false
  | .null, _, _, he => by
      rw [ElementCatalog.inferred?] at he
      cases he
      exact h.unconstrained
  | .ident _, _, _, he | .function _, _, _, he | .arrow _ _ _, _, _, he | .arrowTo _ _ _, _, _, he
  | .classExpr _, _, _, he | .awaited _, _, _, he | .operation _, _, _, he | .assign _ _, _, _, he
  | .call _ _ _ _, _, _, he | .new _ _ _, _, _, he | .member _ _, _, _, he | .access _, _, _, he
  | .instantiated _ _, _, _, he | .spread _, _, _, he | .hole, _, _, he
  | .optionalChain _ _, _, _, he | .other _, _, _, he => nomatch he

/-- The fields of an object literal have allowed names and such schemas. -/
theorem inferredEntries (h : Kept allowed P)
    (hread : ∀ type, AllowedKeys allowed type.writtenKeys → P (read type)) :
    ∀ properties : List Property, AllowedKeys allowed (Source.writtenKeysOfEntries properties) →
      ∀ {entries : Dictionary Schema}, P (.object ⟨entries, []⟩) →
        P (.object ⟨inferredEntries read entries properties, []⟩)
  | [], _, _, hentries => hentries
  | property :: rest, hkeys, _, hentries => by
      rw [Source.writtenKeysOfEntries] at hkeys
      rw [ElementCatalog.inferredEntries]
      exact inferredEntries h hread rest hkeys.of_append.2
        (inferredEntry h hread property hkeys.of_append.1 hentries)

/-- One more entry of an object literal keeps the property. -/
theorem inferredEntry (h : Kept allowed P)
    (hread : ∀ type, AllowedKeys allowed type.writtenKeys → P (read type)) :
    ∀ property : Property, AllowedKeys allowed property.writtenKeys →
      ∀ {entries : Dictionary Schema}, P (.object ⟨entries, []⟩) →
        P (.object ⟨inferredEntry read entries property, []⟩)
  | .keyValue key value, hkeys, entries, hentries => by
      rw [Property.writtenKeys] at hkeys
      rw [ElementCatalog.inferredEntry]
      cases hname : key.name? with
      | none => exact hentries
      | some name =>
          refine h.setField hentries (hkeys _ List.mem_cons_self name hname) ?_
          exact h.getD (inferred? h hread value fun k hk => hkeys k (List.mem_cons_of_mem _ hk))
  | .shorthand name, hkeys, _, hentries =>
      h.setField hentries (hkeys _ List.mem_cons_self name rfl) h.unconstrained
  | .withDefault _ _, _, _, hentries | .method _ _, _, _, hentries
  | .accessor _ _ _ _, _, _, hentries | .spread _, _, _, hentries => hentries

/-- The schema of the items of a list has the property. -/
theorem inferredItems (h : Kept allowed P)
    (hread : ∀ type, AllowedKeys allowed type.writtenKeys → P (read type)) :
    ∀ elements : List Expr, AllowedKeys allowed (Source.writtenKeysOfElements elements) →
      P (inferredItems read elements)
  | [], _ => h.unconstrained
  | element :: rest, hkeys => by
      rw [Source.writtenKeysOfElements] at hkeys
      rcases inferredItems_cons element rest with hpassed | hgiven
      · rw [hpassed]
        exact inferredItems h hread rest hkeys.of_append.2
      · rw [hgiven]
        exact h.getD (inferred? h hread element hkeys.of_append.1)

end

end Values

end Kept

end ElementCatalog
