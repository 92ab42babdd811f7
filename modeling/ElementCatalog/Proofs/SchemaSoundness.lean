import ElementCatalog.Proofs.NameReadings
import ElementCatalog.Proofs.OpenDeclarations
import ElementCatalog.Proofs.UnionAcceptance
import ElementCatalog.Types.Inhabitants

/-!
# Schemas are sound — no value of a type is rejected by its schema

Toward: the schema of a type accepts every JSON value that inhabits the type, for generic, inherited
and recursive declarations, wherever their expansion is cut off.  The route:

* writing and merging properties keeps the objects that all parts accept, and unions keep what a
  member accepts;
* `Stands` relates what a type parameter means to the schema that it is bound to: that of its
  argument or default, read at the place and on the path where it is written;
* by induction on why a value inhabits a type, the schema of the type accepts it, on every path and
  to every depth of expansion.  A declaration that is left open accepts everything.
-/

namespace ElementCatalog

open Source (TypeExpr TypeMember TypeParam)
open ElementCatalog.Types

/-! ## Objects -/

namespace ObjectSchema

variable {fields : List (String × Json)}

/-- The object without properties accepts every object. -/
theorem accepts_empty : empty.accepts fields = true :=
  rfl

/-- Writing a property keeps the objects whose field it accepts. -/
theorem accepts_insert {object : ObjectSchema} {name : String} {schema : Schema} {required : Bool}
    (h : object.accepts fields = true)
    (hpresent : required = true → (Dictionary.find? fields name).isSome)
    (haccept : ∀ v, Dictionary.find? fields name = some v → schema.accepts v = true) :
    (object.insert name schema required).accepts fields = true := by
  obtain ⟨hrequired, hproperties⟩ := accepts_iff.mp h
  refine accepts_iff.mpr ⟨?_, ?_⟩
  · intro other hother
    have hothers : other ∈ object.required.filter (· != name) →
        (Dictionary.find? fields other).isSome := fun hmem =>
      hrequired other (List.mem_filter.mp hmem).1
    cases required with
    | false => exact hothers hother
    | true =>
        rcases List.mem_append.mp hother with hmem | hmem
        · exact hothers hmem
        · rw [List.mem_singleton.mp hmem]
          exact hpresent rfl
  · intro p hp v hv
    rcases Dictionary.mem_of_mem_set hp with heq | hmem
    · rw [heq] at hv ⊢
      exact haccept v hv
    · exact hproperties p hmem v hv

/-- Writing properties keeps the objects whose fields all of them accept. -/
theorem accepts_insertAll {object : ObjectSchema} {entries : List PropertyEntry}
    (h : object.accepts fields = true)
    (hpresent : ∀ e ∈ entries, e.required = true → (Dictionary.find? fields e.name).isSome)
    (haccept : ∀ e ∈ entries, ∀ v, Dictionary.find? fields e.name = some v →
      e.schema.accepts v = true) :
    (object.insertAll entries).accepts fields = true := by
  induction entries generalizing object with
  | nil => exact h
  | cons e rest ih =>
      refine ih (accepts_insert h (hpresent e List.mem_cons_self) (haccept e List.mem_cons_self))
        ?_ ?_
      · exact fun other hother => hpresent other (List.mem_cons_of_mem _ hother)
      · exact fun other hother => haccept other (List.mem_cons_of_mem _ hother)

/-- Writing one object over another keeps the objects that both accept. -/
theorem accepts_merge {object other : ObjectSchema} (h : object.accepts fields = true)
    (hother : other.accepts fields = true) : (object.merge other).accepts fields = true := by
  obtain ⟨hrequired, hproperties⟩ := accepts_iff.mp hother
  -- The properties of the other object are written one by one.
  refine List.foldlRecOn (motive := fun merged : ObjectSchema => merged.accepts fields = true)
    other.properties _ h fun merged hmerged p hp => ?_
  refine accepts_insert hmerged (fun hcontains => ?_) (hproperties p hp)
  exact hrequired p.1 (List.contains_iff_mem.mp hcontains)

/-- Writing several objects over one another keeps the objects that all of them accept. -/
theorem accepts_foldl_merge {object : ObjectSchema} {others : List ObjectSchema}
    (h : object.accepts fields = true) (hothers : ∀ o ∈ others, o.accepts fields = true) :
    (others.foldl merge object).accepts fields = true := by
  induction others generalizing object with
  | nil => exact h
  | cons o rest ih =>
      refine ih (accepts_merge h (hothers o List.mem_cons_self)) ?_
      exact fun o' ho' => hothers o' (List.mem_cons_of_mem _ ho')

end ObjectSchema

/-- What a schema accepts, its object accepts. -/
theorem Schema.object?_accepts {schema : Schema} {shape : ObjectSchema}
    (h : object? schema = some shape) {fields : List (String × Json)}
    (haccept : schema.accepts (.object fields) = true) : shape.accepts fields = true := by
  cases schema with
  | object shape' =>
      cases h
      obtain ⟨fields', hfields, hshape⟩ := Schema.accepts_object.mp haccept
      cases hfields
      exact hshape
  | _ => exact nomatch h

/-- Merging goes on with objects that all schemas accept, or stops where everything is accepted. -/
theorem Resolver.mergedSchema_accepts {fields : List (String × Json)} {members : List Schema} :
    ∀ {merged : ObjectSchema}, merged.accepts fields = true →
      (∀ member ∈ members, member.accepts (.object fields) = true) →
        (mergedSchema merged members).accepts (.object fields) = true := by
  induction members with
  | nil => exact fun hmerged _ => Schema.accepts_object.mpr ⟨fields, rfl, hmerged⟩
  | cons first rest ih =>
      intro merged hmerged h
      cases hshape : object? first with
      | none =>
          rw [mergedSchema_other hshape]
          rfl
      | some shape =>
          have haccept : shape.accepts fields = true :=
            Schema.object?_accepts hshape (h first List.mem_cons_self)
          cases first with
          | object shape' =>
              cases hshape
              rw [mergedSchema_object]
              refine ih (ObjectSchema.accepts_merge hmerged haccept) ?_
              exact fun member hmember => h member (List.mem_cons_of_mem _ hmember)
          | _ => exact nomatch hshape

/-- The schema of an intersection accepts what all of its members accept. -/
theorem Schema.intersectionSchema_accepts {members : List Schema} {v : Json} (hne : members ≠ [])
    (h : ∀ member ∈ members, member.accepts v = true) :
    (intersectionSchema members).accepts v = true := by
  show (Resolver.mergedSchema .empty members).accepts v = true
  cases members with
  | nil => exact absurd rfl hne
  | cons first rest =>
      cases hshape : object? first with
      | none =>
          rw [Resolver.mergedSchema_other hshape]
          rfl
      | some shape =>
          cases first with
          | object shape' =>
              -- An object among the members leaves only objects as values.
              obtain ⟨fields, hv, -⟩ := Schema.accepts_object.mp (h _ List.mem_cons_self)
              rw [hv] at h ⊢
              exact Resolver.mergedSchema_accepts ObjectSchema.accepts_empty h
          | _ => exact nomatch hshape

/-! ## What type parameters stand for -/

mutual

/-- A meaning stands for a schema: the schema accepts its values, or was read, on some path and to
    some depth, from the type that is written. -/
inductive Stands (w : Workspace) : Meaning → Schema → Prop where
  | values {holds : Json → Prop} {schema : Schema} (h : ∀ v, holds v → schema.accepts v = true) :
    Stands w (.values holds) schema
  | written {scope : Scope} {meanings : Dictionary Meaning} (depth : Nat)
    (opened : List DeclarationKey) (type : TypeExpr) (h : StandAll w meanings scope.bindings) :
    Stands w (.written scope.file meanings type)
      (schemaOf w (expanderWithin w depth opened).schema scope type)

/-- Type parameters with meanings are bound to schemas that these stand for, and no others are
    bound. -/
inductive StandAll (w : Workspace) : Dictionary Meaning → Dictionary Schema → Prop where
  | intro {meanings : Dictionary Meaning} {bindings : Dictionary Schema}
    (h : ∀ name, StandIn w (Dictionary.find? meanings name) (Dictionary.find? bindings name)) :
    StandAll w meanings bindings

/-- What is found for a name stands for what it is bound to. -/
inductive StandIn (w : Workspace) : Option Meaning → Option Schema → Prop where
  | none : StandIn w none none
  | some {meaning : Meaning} {schema : Schema} (h : Stands w meaning schema) :
    StandIn w (some meaning) (some schema)

end

variable {w : Workspace}

/-- No parameters, no bindings. -/
theorem StandAll.nil : StandAll w [] [] :=
  .intro fun _ => .none

/-- Binding one more parameter to a schema that its meaning stands for. -/
theorem StandAll.set {meanings : Dictionary Meaning} {bindings : Dictionary Schema}
    (h : StandAll w meanings bindings) (name : String) {meaning : Meaning} {schema : Schema}
    (hstands : Stands w meaning schema) :
    StandAll w (Dictionary.set meanings name meaning) (Dictionary.set bindings name schema) := by
  obtain ⟨h⟩ := h
  refine .intro fun other => ?_
  rw [Dictionary.find?_set, Dictionary.find?_set]
  by_cases hname : other = name
  · rw [if_pos hname, if_pos hname]
    exact .some hstands
  · rw [if_neg hname, if_neg hname]
    exact h other

/-- A name without a meaning is not bound. -/
theorem StandAll.find?_none {meanings : Dictionary Meaning} {bindings : Dictionary Schema}
    (h : StandAll w meanings bindings) {name : String}
    (hname : Dictionary.find? meanings name = none) : Dictionary.find? bindings name = none := by
  obtain ⟨h⟩ := h
  have hin := h name
  rw [hname] at hin
  generalize Dictionary.find? bindings name = bound at hin
  cases hin
  rfl

/-- A name with a meaning is bound to a schema that the meaning stands for. -/
theorem StandAll.find?_some {meanings : Dictionary Meaning} {bindings : Dictionary Schema}
    (h : StandAll w meanings bindings) {name : String} {meaning : Meaning}
    (hname : Dictionary.find? meanings name = some meaning) :
    ∃ schema, Dictionary.find? bindings name = some schema ∧ Stands w meaning schema := by
  obtain ⟨h⟩ := h
  have hin := h name
  rw [hname] at hin
  generalize Dictionary.find? bindings name = bound at hin
  cases hin with
  | some hstands => exact ⟨_, rfl, hstands⟩

/-- Arguments stand for the schemas that they are read to. -/
theorem schemasOf_stand {scope : Scope} {meanings : Dictionary Meaning}
    (h : StandAll w meanings scope.bindings) (depth : Nat) (opened : List DeclarationKey)
    (args : List TypeExpr) :
    List.Forall₂ (Stands w) (args.map (.written scope.file meanings))
      (schemasOf w (expanderWithin w depth opened).schema scope args) := by
  induction args with
  | nil => exact .nil
  | cons arg rest ih =>
      rw [List.map_cons, schemasOf]
      exact .cons (.written depth opened arg h) ih

/-- The parameters of a declaration are bound to schemas that their meanings stand for, in the file
    of the declaration. -/
theorem bindParams_stand (depth : Nat) (opened : List DeclarationKey) (params : List TypeParam) :
    ∀ {args : List Meaning} {schemas : List Schema} {meanings : Dictionary Meaning} {scope : Scope},
      List.Forall₂ (Stands w) args schemas → StandAll w meanings scope.bindings →
        (bindParams w (expanderWithin w depth opened).schema params schemas scope).file =
          scope.file ∧
          StandAll w (paramMeanings scope.file params args meanings)
            (bindParams w (expanderWithin w depth opened).schema params schemas
              scope).bindings := by
  induction params with
  | nil => exact fun _ h => ⟨rfl, h⟩
  | cons param rest ih =>
      intro args schemas meanings scope hargs h
      cases hargs with
      | cons hfirst hothers => exact ih hothers (h.set param.name hfirst)
      | nil =>
          have hdefault : Stands w (defaultMeaning scope.file meanings param.default)
              (declaredSchema w (expanderWithin w depth opened).schema scope param.default) := by
            cases param.default with
            | some type => exact .written depth opened type h
            | none => exact .values fun _ _ => rfl
          exact ih .nil (h.set param.name hdefault)

/-! ## The parts of a type -/

section Parts

variable {expand : Expand} {scope : Scope}

/-- A type that does not stand for a missing value has its schema in a union. -/
theorem mem_definedSchemasOf {types : List TypeExpr} {type : TypeExpr} (htype : type ∈ types)
    (hdefined : isUndefined type = false) :
    schemaOf w expand scope type ∈ definedSchemasOf w expand scope types := by
  rw [definedSchemasOf_eq_map]
  exact List.mem_map_of_mem (List.mem_filter.mpr ⟨htype, by rw [hdefined]; rfl⟩)

/-- Types that all stand for a missing value leave nothing in a union. -/
theorem definedSchemasOf_eq_nil {types : List TypeExpr}
    (h : ∀ type ∈ types, isUndefined type = true) : definedSchemasOf w expand scope types = [] := by
  rw [definedSchemasOf_eq_map, List.map_eq_nil_iff, List.filter_eq_nil_iff]
  intro type htype
  rw [h type htype]
  exact Bool.false_ne_true

/-- A property of an object type is declared by one of its members. -/
theorem exists_member_of_mem_entriesOf {members : List TypeMember} {e : PropertyEntry}
    (he : e ∈ entriesOf w expand scope members) :
    ∃ member ∈ members, entryOf w expand scope member = some e := by
  induction members with
  | nil => exact nomatch he
  | cons member rest ih =>
      rw [entriesOf] at he
      rcases List.mem_append.mp he with hfirst | hrest
      · exact ⟨member, List.mem_cons_self, Option.mem_toList.mp hfirst⟩
      · obtain ⟨later, hlater, heq⟩ := ih hrest
        exact ⟨later, List.mem_cons_of_mem _ hlater, heq⟩

/-- A property signature declares its property. -/
theorem entryOf_signature {member : TypeMember} {s : PropertySignature}
    (hs : PropertySignature.ofMember? member = some s) :
    entryOf w expand scope member =
      some ⟨s.name, declaredSchema w expand scope s.type, !s.optional⟩ := by
  cases member with
  | property start key optional type =>
      obtain ⟨name, hname, heq⟩ := Option.map_eq_some_iff.mp hs
      have hkey : key.name? = some name := by
        cases key with
        | ident other computed =>
            cases computed with
            | true => exact nomatch hname
            | false => exact hname
        | literal value => exact hname
      rw [entryOf, hkey, ← heq]
      rfl
  | _ => exact nomatch hs

/-- An object type accepts the objects that have what its property signatures ask for. -/
theorem objectSchema_accepts {members : List TypeMember} {fields : List (String × Json)}
    (hsignatures : ∀ member ∈ members, (PropertySignature.ofMember? member).isSome)
    (hpresent : ∀ member ∈ members, ∀ s, PropertySignature.ofMember? member = some s →
      s.optional = false → (Dictionary.find? fields s.name).isSome)
    (haccept : ∀ member ∈ members, ∀ s, PropertySignature.ofMember? member = some s →
      ∀ type, s.type = some type → ∀ v, Dictionary.find? fields s.name = some v →
        (schemaOf w expand scope type).accepts v = true) :
    (ObjectSchema.insertAll .empty (entriesOf w expand scope members)).accepts fields = true := by
  -- Every property that is written comes from one of the signatures.
  have hentry : ∀ e ∈ entriesOf w expand scope members, ∃ member ∈ members, ∃ s,
      PropertySignature.ofMember? member = some s ∧
        e = ⟨s.name, declaredSchema w expand scope s.type, !s.optional⟩ := by
    intro e he
    obtain ⟨member, hmember, heq⟩ := exists_member_of_mem_entriesOf he
    obtain ⟨s, hs⟩ := Option.isSome_iff_exists.mp (hsignatures member hmember)
    rw [entryOf_signature hs] at heq
    exact ⟨member, hmember, s, hs, (Option.some.inj heq).symm⟩
  refine ObjectSchema.accepts_insertAll ObjectSchema.accepts_empty ?_ ?_
  · intro e he hrequired
    obtain ⟨member, hmember, s, hs, heq⟩ := hentry e he
    rw [heq] at hrequired ⊢
    exact hpresent member hmember s hs (by simpa using hrequired)
  · intro e he v hv
    obtain ⟨member, hmember, s, hs, heq⟩ := hentry e he
    rw [heq] at hv ⊢
    cases htype : s.type with
    | none => rw [declaredSchema]; rfl
    | some type =>
        rw [declaredSchema]
        exact haccept member hmember s hs type htype v hv

/-- A tuple accepts lists whose items are accepted at their places. -/
theorem tupleSchema_accepts {elements : List Schema} {items : List Json}
    (hlength : items.length ≤ elements.length)
    (h : ∀ (i : Nat) element item, elements[i]? = some element → items[i]? = some item →
      element.accepts item = true) :
    (tupleSchema elements).accepts (.array items) = true := by
  rw [tupleSchema]
  split
  · rw [Schema.accepts_array]
    exact fun _ _ => rfl
  · rw [Schema.accepts_array]
    intro item hitem
    obtain ⟨i, hi⟩ := List.mem_iff_getElem?.mp hitem
    have hlt : i < elements.length :=
      Nat.lt_of_lt_of_le (List.getElem?_eq_some_iff.mp hi).1 hlength
    have helement : elements[i]? = some elements[i] := List.getElem?_eq_getElem hlt
    exact Schema.union_accepts
      (someAccepts_iff.mpr ⟨elements[i], List.getElem_mem hlt, h i _ item helement hi⟩)

/-- An interface accepts what its own members accept and whatever it extends. -/
theorem interfaceSchema_accepts {decl : Source.InterfaceDecl} {v : Json}
    (hparents : ∀ parent ∈ decl.parents, ∀ name, parent.name? = some name →
      (schemaOf w expand scope (.reference name (parent.args.map (·.type)))).accepts v = true)
    (hown : (schemaOf w expand scope (.object decl.members)).accepts v = true) :
    (interfaceSchema w expand scope decl).accepts v = true := by
  rw [schemaOf] at hown
  obtain ⟨fields, hv, hown⟩ := Schema.accepts_object.mp hown
  rw [hv] at hparents ⊢
  refine Schema.accepts_object.mpr ⟨fields, rfl, ObjectSchema.accepts_merge ?_ hown⟩
  -- A parent whose schema is no object is passed over; every other one accepts the value.
  refine ObjectSchema.accepts_foldl_merge ObjectSchema.accepts_empty fun shape hshape => ?_
  obtain ⟨parent, hparent, hname⟩ := List.mem_filterMap.mp hshape
  obtain ⟨name, hname, hobject⟩ := Option.bind_eq_some_iff.mp hname
  exact Schema.object?_accepts hobject (hparents parent hparent name hname)

end Parts

/-! ## Names -/

/-- A declaration that is left open, or that no depth is left for, accepts everything; otherwise the
    schema inside decides. -/
theorem expanderWithin_accepts {d : Declaration} {args : List Schema} {v : Json}
    (h : ∀ depth opened,
      (declarationSchema w (expanderWithin w depth opened).schema d args).accepts v = true)
    (depth : Nat) (opened : List DeclarationKey) :
    ((expanderWithin w depth opened).schema d args).accepts v = true := by
  cases depth with
  | zero => rfl
  | succ depth =>
      show (if opened.contains d.key then Schema.unconstrained
        else declarationSchema w (expanderWithin w depth (d.key :: opened)).schema d args).accepts v
          = true
      split
      · rfl
      · exact h depth (d.key :: opened)

/-- A name that is no parameter and not well known is read by looking into its declaration. -/
theorem schemaOf_named {expand : Expand} {scope : Scope} {name : String} {d : Declaration}
    (hunbound : Dictionary.find? scope.bindings name = none) (hplain : wellKnown? name = none)
    (hd : w.type? scope.file name = some d) (args : List TypeExpr) :
    schemaOf w expand scope (.reference (.ident name) args) =
      expand d (schemasOf w expand scope args) := by
  rw [schemaOf, hunbound, hplain, hd]

/-- A reference is accepted if its declaration is, on every path and to every depth, with any
    schemas that the arguments stand for. -/
theorem schemaOf_named_accepts {scope : Scope} {meanings : Dictionary Meaning} {name : String}
    {d : Declaration} {args : List TypeExpr} {v : Json}
    (hstand : StandAll w meanings scope.bindings)
    (hunbound : Dictionary.find? meanings name = none) (hplain : wellKnown? name = none)
    (hd : w.type? scope.file name = some d)
    (h : ∀ depth opened schemas,
      List.Forall₂ (Stands w) (args.map (.written scope.file meanings)) schemas →
        (declarationSchema w (expanderWithin w depth opened).schema d schemas).accepts v = true)
    (depth : Nat) (opened : List DeclarationKey) :
    (schemaOf w (expanderWithin w depth opened).schema scope
      (.reference (.ident name) args)).accepts v = true := by
  -- The arguments are read outside of the declaration, on the path that the reference stands on.
  have hargs := schemasOf_stand hstand depth opened args
  rw [schemaOf_named (hstand.find?_none hunbound) hplain hd]
  exact expanderWithin_accepts (fun depth' opened' => h depth' opened' _ hargs) depth opened

/-- A parameter is read to the schema that it is bound to. -/
theorem schemaOf_bound {expand : Expand} {scope : Scope} {name : String} {bound : Schema}
    (hbound : Dictionary.find? scope.bindings name = some bound) (args : List TypeExpr) :
    schemaOf w expand scope (.reference (.ident name) args) = bound := by
  rw [schemaOf, hbound]

/-- The names of lists are read to lists of their first argument. -/
theorem schemaOf_listName {expand : Expand} {scope : Scope} {name : String}
    (hname : name ∈ ["Array", "ReadonlyArray"])
    (hunbound : Dictionary.find? scope.bindings name = none) (type : TypeExpr)
    (rest : List TypeExpr) :
    schemaOf w expand scope (.reference (.ident name) (type :: rest)) =
      .array (schemaOf w expand scope type) := by
  have hrule : wellKnown? name = some .listOfFirst := by
    rcases List.mem_cons.mp hname with heq | hname
    · rw [heq]
      rfl
    · rw [List.mem_singleton.mp hname]
      rfl
  rw [schemaOf, hunbound, hrule]
  rfl

/-! ## Soundness -/

/-- On every path and to every depth, the schema of a type accepts what inhabits it. Path and depth
    are free in the induction, because an argument is read on another path than the one on which its
    parameter is met. -/
theorem Inhabits.accepted {file : SourceFile} {meanings : Dictionary Meaning} {type : TypeExpr}
    {v : Json} (h : Inhabits w file meanings type v) :
    ∀ (depth : Nat) (opened : List DeclarationKey) (scope : Scope), scope.file = file →
      StandAll w meanings scope.bindings →
        (schemaOf w (expanderWithin w depth opened).schema scope type).accepts v = true := by
  induction h with
  | string | integer | number | boolean | null | undefined | void | any =>
      intro depth opened scope _ _
      rw [schemaOf]
      rfl
  | stringLiteral hvalue =>
      intro depth opened scope _ _
      rw [schemaOf, literalSchema, hvalue]
      exact Schema.accepts_literal (beq_self_eq_true _)
  | numberLiteral hx =>
      intro depth opened scope _ _
      rw [schemaOf]
      exact Schema.accepts_literal hx
  | booleanLiteral b =>
      intro depth opened scope _ _
      rw [schemaOf]
      exact Schema.accepts_literal (beq_self_eq_true b)
  | array _ ih =>
      intro depth opened scope hfile hstand
      rw [schemaOf, Schema.accepts_array]
      exact fun item hitem => ih item hitem depth opened scope hfile hstand
  | arrayReference hname hunbound _ ih =>
      intro depth opened scope hfile hstand
      rw [schemaOf_listName hname (hstand.find?_none hunbound), Schema.accepts_array]
      exact fun item hitem => ih item hitem depth opened scope hfile hstand
  | tuple hlength _ _ ih =>
      intro depth opened scope hfile hstand
      rw [schemaOf, schemasOf_eq_map]
      refine tupleSchema_accepts (by rwa [List.length_map]) fun i schema item hschema hitem => ?_
      rw [List.getElem?_map] at hschema
      obtain ⟨element, helement, heq⟩ := Option.map_eq_some_iff.mp hschema
      rw [← heq]
      exact ih i element item helement hitem depth opened scope hfile hstand
  -- From here on the schema of a combination is put together from those of its members.
  | optional _ ih | paren _ ih | readonly _ ih =>
      intro depth opened scope hfile hstand
      rw [schemaOf]
      exact ih depth opened scope hfile hstand
  | union hmember hdefined _ ih =>
      intro depth opened scope hfile hstand
      rw [schemaOf]
      exact Schema.union_accepts (someAccepts_iff.mpr
        ⟨_, mem_definedSchemasOf hmember hdefined, ih depth opened scope hfile hstand⟩)
  | missingUnion hmissing =>
      intro depth opened scope _ _
      rw [schemaOf, definedSchemasOf_eq_nil hmissing]
      rfl
  | intersection hmembers _ ih =>
      intro depth opened scope hfile hstand
      rw [schemaOf, schemasOf_eq_map]
      refine Schema.intersectionSchema_accepts (by simpa using hmembers) fun schema hschema => ?_
      obtain ⟨member, hmember, heq⟩ := List.mem_map.mp hschema
      rw [← heq]
      exact ih member hmember depth opened scope hfile hstand
  | object hsignatures hpresent _ ih =>
      intro depth opened scope hfile hstand
      rw [schemaOf]
      refine Schema.accepts_object.mpr ⟨_, rfl, objectSchema_accepts hsignatures hpresent ?_⟩
      exact fun member hmember s hs type htype v hv =>
        ih member hmember s hs type htype v hv depth opened scope hfile hstand
  | boundValues hbound hholds =>
      intro depth opened scope _ hstand
      obtain ⟨schema, hschema, hstands⟩ := hstand.find?_some hbound
      rw [schemaOf_bound hschema]
      cases hstands with
      | values hvalues => exact hvalues _ hholds
  | boundType hbound _ ih =>
      intro depth opened scope _ hstand
      obtain ⟨schema, hschema, hstands⟩ := hstand.find?_some hbound
      rw [schemaOf_bound hschema]
      -- The argument was read elsewhere: on the path and to the depth that stood there.
      cases hstands with
      | written depth' opened' type hwritten => exact ih depth' opened' _ rfl hwritten
  | @aliasReference _ _ _ args d decl _ hunbound hplain hd hnode _ ih =>
      intro depth opened scope hfile hstand
      subst hfile
      refine schemaOf_named_accepts hstand hunbound hplain hd ?_ depth opened
      intro depth' opened' schemas hargs
      have hfresh : StandAll w [] (Scope.ofFile d.file).bindings := .nil
      obtain ⟨hown, hparams⟩ := bindParams_stand depth' opened' decl.params hargs hfresh
      simp only [declarationSchema, hnode]
      exact ih depth' opened' _ hown hparams
  | @interfaceReference _ _ _ args d decl _ hunbound hplain hd hnode hnames _ _ ihparents ihown =>
      intro depth opened scope hfile hstand
      subst hfile
      refine schemaOf_named_accepts hstand hunbound hplain hd ?_ depth opened
      intro depth' opened' schemas hargs
      have hfresh : StandAll w [] (Scope.ofFile d.file).bindings := .nil
      obtain ⟨hown, hparams⟩ := bindParams_stand depth' opened' decl.params hargs hfresh
      simp only [declarationSchema, hnode]
      refine interfaceSchema_accepts ?_ (ihown depth' opened' _ hown hparams)
      intro parent hparent name hname
      obtain ⟨base, hbase⟩ := hnames parent hparent
      cases hname.symm.trans hbase
      exact ihparents parent hparent base hbase depth' opened' _ hown hparams

/-- Type parameters that hold what their schemas accept stand for these schemas. -/
theorem Scope.standAll_meanings {scope : Scope} {holds : String → Json → Prop}
    (hholds : ∀ name schema, Dictionary.find? scope.bindings name = some schema →
      ∀ v, holds name v → schema.accepts v = true) :
    StandAll w (scope.meanings holds) scope.bindings := by
  refine .intro fun name => ?_
  have hfind : Dictionary.find? (scope.meanings holds) name =
      (Dictionary.find? scope.bindings name).map fun _ => .values (holds name) :=
    Dictionary.find?_map_names scope.bindings (fun name => Meaning.values (holds name)) name
  rw [hfind]
  cases hbound : Dictionary.find? scope.bindings name with
  | none => exact .none
  | some schema => exact .some (.values (hholds name schema hbound))

/-- **Schema soundness**: let the type parameters in scope hold any values that their schemas
    accept; then the schema of a type accepts every JSON value that inhabits the type. -/
theorem Workspace.schemaIn_accepts_inhabitants (w : Workspace) (scope : Scope)
    (holds : String → Json → Prop)
    (hholds : ∀ name schema, Dictionary.find? scope.bindings name = some schema →
      ∀ v, holds name v → schema.accepts v = true)
    (type : TypeExpr) (v : Json) (h : Inhabits w scope.file (scope.meanings holds) type v) :
    (w.schemaIn scope type).accepts v = true :=
  h.accepted (w.typeCount + 1) [] scope rfl (Scope.standAll_meanings hholds)

/-! ## A recursive generic interface -/

namespace Workspace

/-- The type of trees: a value, and optional children that are trees of such values. -/
def treeInterface : Source.InterfaceDecl :=
  { start := ⟨0, 1⟩
    name := "Tree"
    params := [⟨"V", none, []⟩]
    parents := []
    members :=
      [ .property ⟨20, 1⟩ (.ident "value" false) false (some (.reference (.ident "V") [])),
        .property ⟨30, 1⟩ (.ident "children" false) true
          (some (.array (.reference (.ident "Tree") [.reference (.ident "V") []]))) ]
    inner := [] }

/-- A module that declares the type of trees. -/
def treeModule : ParsedFile :=
  { path := ⟨[.root, .name "trees.ts"]⟩
    module := ⟨[.interfaceDecl treeInterface], []⟩
    discoverable := true }

/-- The file of that module. -/
def treeFile : SourceFile :=
  Program.placed ⟨[.root]⟩ treeModule 0

/-- The workspace of that file alone. -/
def treeWorkspace : Workspace :=
  .ofProgram (.ofParsed ⟨[.root]⟩ [treeModule]) {}

/-- The name of trees refers to their declaration. -/
theorem tree_declared : ∃ d, treeWorkspace.type? treeFile "Tree" = some d ∧ d.file = treeFile ∧
    d.node = .interfaceNode treeInterface :=
  ⟨⟨"Tree", treeFile, .interfaceNode treeInterface, [treeInterface.start], treeInterface.start⟩,
    type?_placed _ _ _ rfl, rfl, rfl⟩

/-- An object with a value of the argument's type, and with children that are trees if it has any,
    is a tree of such values. -/
theorem tree_inhabited {meanings : Dictionary Meaning} {arg : TypeExpr}
    {fields : List (String × Json)} {value : Json}
    (hunbound : Dictionary.find? meanings "Tree" = none)
    (hfield : Dictionary.find? fields "value" = some value)
    (hvalue : Inhabits treeWorkspace treeFile meanings arg value)
    (hchildren : ∀ children, Dictionary.find? fields "children" = some children →
      Inhabits treeWorkspace treeFile [("V", .written treeFile meanings arg)]
        (.array (.reference (.ident "Tree") [.reference (.ident "V") []])) children) :
    Inhabits treeWorkspace treeFile meanings (.reference (.ident "Tree") [arg])
      (.object fields) := by
  obtain ⟨d, hd, hfile, hnode⟩ := tree_declared
  refine .interfaceReference hunbound rfl hd hnode ?_ ?_ ?_
  · exact fun _ hparent => absurd hparent List.not_mem_nil
  · exact fun _ hparent => absurd hparent List.not_mem_nil
  · rw [hfile]
    refine .object ?_ ?_ ?_
    · intro member hmember
      rcases List.mem_cons.mp hmember with heq | hmember
      · rw [heq]
        rfl
      · rw [List.mem_singleton.mp hmember]
        rfl
    · intro member hmember s hs hrequired
      rcases List.mem_cons.mp hmember with heq | hmember
      · rw [heq] at hs
        cases hs
        show (Dictionary.find? fields "value").isSome = true
        rw [hfield]
        rfl
      · rw [List.mem_singleton.mp hmember] at hs
        cases hs
        exact nomatch hrequired
    · intro member hmember s hs type htype v hv
      rcases List.mem_cons.mp hmember with heq | hmember
      · rw [heq] at hs
        cases hs
        cases htype
        cases hfield.symm.trans hv
        exact .boundType rfl hvalue
      · rw [List.mem_singleton.mp hmember] at hs
        cases hs
        cases htype
        exact hchildren v hv

/-- A tree with one child, of texts. -/
def sapling : Json :=
  .object [("value", .string "root"),
    ("children", .array [.object [("value", .string "leaf")]])]

/-- A scope with a type parameter for texts. -/
def textScope : Scope :=
  (Scope.ofFile treeFile).bind "T" .string

/-- The type of trees of what the parameter stands for. -/
def textTree : TypeExpr :=
  .reference (.ident "Tree") [.reference (.ident "T") []]

/-- If the type parameter holds texts, the tree inhabits the type of trees of them, and the schema
    of that type accepts it. -/
theorem sapling_accepted :
    (∀ name schema, Dictionary.find? textScope.bindings name = some schema →
      ∀ v, (∃ text, v = .string text) → schema.accepts v = true) ∧
    Inhabits treeWorkspace textScope.file
      (textScope.meanings fun _ v => ∃ text, v = .string text) textTree sapling ∧
    (treeWorkspace.schemaIn textScope textTree).accepts sapling = true := by
  have hholds : ∀ name schema, Dictionary.find? textScope.bindings name = some schema →
      ∀ v, (∃ text, v = .string text) → schema.accepts v = true := by
    intro name schema hschema v ⟨text, hv⟩
    have hentry : (name, schema) ∈ [("T", Schema.string)] := Dictionary.mem_of_find? hschema
    cases List.mem_singleton.mp hentry
    rw [hv]
    rfl
  have hleaf : Inhabits treeWorkspace treeFile
      [("V", .written treeFile (textScope.meanings fun _ v => ∃ text, v = .string text)
        (.reference (.ident "T") []))]
      (.reference (.ident "Tree") [.reference (.ident "V") []])
      (.object [("value", .string "leaf")]) :=
    tree_inhabited rfl rfl (.boundType rfl (.boundValues rfl ⟨"leaf", rfl⟩))
      fun _ hnone => absurd hnone (Option.some_ne_none _).symm
  have hroot : Inhabits treeWorkspace textScope.file
      (textScope.meanings fun _ v => ∃ text, v = .string text) textTree sapling := by
    refine tree_inhabited rfl rfl (.boundValues rfl ⟨"root", rfl⟩) fun children hchildren => ?_
    cases hchildren
    refine .array fun item hitem => ?_
    rw [List.mem_singleton.mp hitem]
    exact hleaf
  exact ⟨hholds, hroot, schemaIn_accepts_inhabitants treeWorkspace textScope
    (fun _ v => ∃ text, v = .string text) hholds textTree sapling hroot⟩

end Workspace

end ElementCatalog
