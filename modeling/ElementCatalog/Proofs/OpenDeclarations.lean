import ElementCatalog.Proofs.ExportSearch
import ElementCatalog.Types.Resolver

/-!
# Open declarations — one shared set reads like a path that is handed down

Toward: a resolver that keeps one set of open declarations returns with the set that it was called
with, never nests deeper than there are declarations, and answers what the expander answers that
hands the declarations on its path down.  The route:

* `Reading.Gives` says that a reading gives a value and leaves the set as it was; readings that do
  so may follow one another, and a declaration may be opened around them;
* `Resolver.Agrees` is the induction hypothesis for one set of open declarations.  Under it every
  part of a type expression is read to what the expander makes of it;
* every expansion opens a declaration that was not open, so the number of declarations that are not
  open bounds how many expansions may still stand inside one another.
-/

namespace ElementCatalog

open Source (TypeExpr TypeMember TypeParam Heritage)
open ElementCatalog.Types

/-! ## Readings that restore the open declarations -/

namespace Reading

variable {α β : Type} {opened : List DeclarationKey}

/-- The reading gives a value and leaves the set of open declarations as it was. -/
def Gives (m : Reading α) (opened : List DeclarationKey) (a : α) : Prop :=
  m.run opened = some (a, opened)

/-- A value that needs no reading. -/
theorem Gives.pure (a : α) : Gives (pure a) opened a :=
  rfl

/-- One reading after another. -/
theorem Gives.bind {m : Reading α} {next : α → Reading β} {a : α} {b : β}
    (hm : m.Gives opened a) (hnext : (next a).Gives opened b) : (m >>= next).Gives opened b := by
  show (m >>= next).run opened = some (b, opened)
  rw [StateT.run_bind, show m.run opened = some (a, opened) from hm]
  exact hnext

/-- A reading and a value that is made of what it gives. -/
theorem Gives.map {m : Reading α} {a : α} (hm : m.Gives opened a) (f : α → β) :
    (m >>= fun a => Pure.pure (f a)).Gives opened (f a) :=
  hm.bind (.pure (f a))

/-- A reading gives only one value. -/
theorem Gives.unique {m : Reading α} {a a' : α} (h : m.Gives opened a) (h' : m.Gives opened a') :
    a = a' :=
  congrArg Prod.fst (Option.some.inj (h.symm.trans h'))

/-- Reading while a declaration is open: what is read inside may rely on the declaration not being
    open outside, and the declaration is not open any more afterwards. -/
theorem Gives.whileOpen {d : Declaration} {closed a : α} {read : Reading α}
    (hread : d.key ∉ opened → read.Gives (d.key :: opened) a) :
    (whileOpen d closed read).Gives opened (if opened.contains d.key then closed else a) := by
  show (Reading.whileOpen d closed read).run opened = _
  rw [Reading.whileOpen, StateT.run_bind, StateT.run_get]
  show (if opened.contains d.key = true then (Pure.pure closed : Reading α) else _).run opened = _
  cases hopen : opened.contains d.key with
  | true => rfl
  | false =>
      have hkey : d.key ∉ opened := by simpa using hopen
      -- What is read inside starts from one open declaration more, and gives it back open.
      rw [if_neg Bool.false_ne_true, if_neg Bool.false_ne_true, StateT.run_bind, StateT.run_set,
        pure_bind, StateT.run_bind]
      show (read.run (d.key :: opened) >>= _) = _
      rw [show read.run (d.key :: opened) = some (a, d.key :: opened) from hread hkey]
      show some (a, (d.key :: opened).erase d.key) = some (a, opened)
      rw [List.erase_cons_head]

end Reading

namespace Resolver

variable {w : Workspace} {r : Resolver} {e : Expander} {opened : List DeclarationKey}

/-- While the `opened` declarations are open, the resolver looks into every type that the workspace
    declares like the expander, and closes it again. -/
structure Agrees (w : Workspace) (r : Resolver) (e : Expander) (opened : List DeclarationKey) :
    Prop where
  expand : ∀ d, w.Declares .type d → ∀ args, (r.expand d args).Gives opened (e.schema d args)
  members : ∀ d, w.Declares .type d → ∀ args, (r.members d args).Gives opened (e.members d args)
  callback : ∀ d, w.Declares .type d → ∀ args scope,
    (r.callback d args scope).Gives opened (e.callback d args scope)

/-! ## Schemas -/

/-- The schema of an intersection whose first members have been merged already. -/
def mergedSchema (merged : ObjectSchema) (members : List Schema) : Schema :=
  match members.mapM object? with
  | some objects => .object (objects.foldl ObjectSchema.merge merged)
  | none => .unconstrained

/-- Merging goes on after an object. -/
theorem mergedSchema_object (merged shape : ObjectSchema) (rest : List Schema) :
    mergedSchema merged (.object shape :: rest) = mergedSchema (merged.merge shape) rest := by
  rw [mergedSchema, mergedSchema, List.mapM_cons]
  cases rest.mapM object? with
  | some objects => rfl
  | none => rfl

/-- Merging stops at a schema that is no object. -/
theorem mergedSchema_other {merged : ObjectSchema} {first : Schema} {rest : List Schema}
    (h : object? first = none) : mergedSchema merged (first :: rest) = .unconstrained := by
  rw [mergedSchema, List.mapM_cons, h]
  rfl

mutual

/-- A type is read to its schema. -/
theorem schema_gives (h : r.Agrees w e opened) (scope : Scope) : ∀ type : TypeExpr,
    (r.schema w scope type).Gives opened (schemaOf w e.schema scope type)
  | .keyword keyword => .pure _
  | .reference (.ident name) args => by
      rw [schema, schemaOf]
      cases Dictionary.find? scope.bindings name with
      | some bound => exact .pure bound
      | none =>
          cases hknown : wellKnown? name with
          | some rule =>
              have hfirst := (first_gives h scope args).map (rule.apply · (keysArgument args))
              cases rule with
              | fixed known => exact .pure known
              | _ => exact hfirst
          | none =>
              cases hd : w.type? scope.file name with
              | some d =>
                  -- The arguments are read first, while the declaration is as it was outside.
                  exact (schemas_gives h scope args).bind
                    (h.expand d (Workspace.resolve?_declares hd) _)
              | none => exact .pure _
  | .reference (.qualified (.ident outer) name) args => by
      rw [schema, schemaOf]
      cases enumMembers? (w.type? scope.file outer) with
      | some members => exact .pure _
      | none =>
          cases hd : w.qualifiedType? scope.file outer name with
          | some d =>
              exact (schemas_gives h scope args).bind
                (h.expand d (Workspace.qualifiedType?_declares hd) _)
          | none => exact .pure _
  | .reference (.qualified (.qualified _ _) _) _ => .pure _
  | .literal value => .pure _
  | .object members => by
      rw [schema, schemaOf]
      exact (entries_gives h scope members).map _
  | .array items => by
      rw [schema, schemaOf]
      exact (schema_gives h scope items).map _
  | .tuple elements => by
      rw [schema, schemaOf]
      exact (schemas_gives h scope elements).map _
  | .optional type => by
      rw [schema, schemaOf]
      exact schema_gives h scope type
  | .rest type => by
      rw [schema, schemaOf]
      exact (schema_gives h scope type).map _
  | .union members => by
      rw [schema, schemaOf]
      exact (definedSchemas_gives h scope members).map _
  | .intersection members => by
      rw [schema, schemaOf]
      exact intersection_gives h scope members .empty
  | .paren type => by
      rw [schema, schemaOf]
      exact schema_gives h scope type
  | .readonly type => by
      rw [schema, schemaOf]
      exact schema_gives h scope type
  | .keyof type => by
      rw [schema, schemaOf]
      exact (schema_gives h scope type).map _
  | .indexed object index => by
      rw [schema, schemaOf]
      exact (schema_gives h scope object).map (indexedSchema · index)
  | .mapped => .pure _
  | .predicate => .pure _
  | .function _ => .pure _
  | .other => .pure _

/-- Several types are read to their schemas. -/
theorem schemas_gives (h : r.Agrees w e opened) (scope : Scope) : ∀ types : List TypeExpr,
    (r.schemas w scope types).Gives opened (schemasOf w e.schema scope types)
  | [] => .pure _
  | type :: rest => by
      rw [schemas, schemasOf]
      exact (schema_gives h scope type).bind ((schemas_gives h scope rest).map _)

/-- The types that stand for a value are read to their schemas. -/
theorem definedSchemas_gives (h : r.Agrees w e opened) (scope : Scope) :
    ∀ types : List TypeExpr,
      (r.definedSchemas w scope types).Gives opened (definedSchemasOf w e.schema scope types)
  | [] => .pure _
  | type :: rest => by
      rw [definedSchemas, definedSchemasOf]
      cases isUndefined type with
      | true => exact definedSchemas_gives h scope rest
      | false =>
          exact (schema_gives h scope type).bind ((definedSchemas_gives h scope rest).map _)

/-- The members of an intersection are read until one of them is no object. -/
theorem intersection_gives (h : r.Agrees w e opened) (scope : Scope) :
    ∀ (types : List TypeExpr) (merged : ObjectSchema),
      (r.intersection w scope merged types).Gives opened
        (mergedSchema merged (schemasOf w e.schema scope types))
  | [], merged => .pure _
  | type :: rest, merged => by
      rw [intersection, schemasOf]
      refine (schema_gives h scope type).bind ?_
      -- Leaving early leaves nothing open: every reading before has closed what it opened.
      cases hshape : schemaOf w e.schema scope type with
      | object shape =>
          rw [mergedSchema_object]
          exact intersection_gives h scope rest (merged.merge shape)
      | _ =>
          rw [mergedSchema_other rfl]
          exact .pure _

/-- The first of several types is read to its schema. -/
theorem first_gives (h : r.Agrees w e opened) (scope : Scope) : ∀ types : List TypeExpr,
    (r.first w scope types).Gives opened (firstSchema w e.schema scope types)
  | [] => .pure _
  | type :: _ => by
      rw [first, firstSchema]
      exact schema_gives h scope type

/-- A declared type is read to its schema. -/
theorem declared_gives (h : r.Agrees w e opened) (scope : Scope) : ∀ type : Option TypeExpr,
    (r.declared w scope type).Gives opened (declaredSchema w e.schema scope type)
  | none => .pure _
  | some type => by
      rw [declared, declaredSchema]
      exact schema_gives h scope type

/-- A member of an object type is read to the property that it declares. -/
theorem entry_gives (h : r.Agrees w e opened) (scope : Scope) : ∀ member : TypeMember,
    (r.entry w scope member).Gives opened (entryOf w e.schema scope member)
  | .property _ key optional type => by
      rw [entry, entryOf]
      cases key.name? with
      | some name => exact (declared_gives h scope type).map _
      | none => exact .pure _
  | .getter _ key type => by
      rw [entry, entryOf]
      cases key.name? with
      | some name => exact (declared_gives h scope type).map _
      | none => exact .pure _
  | .method _ _ _ _ => .pure _
  | .other => .pure _

/-- The members of an object type are read to the properties that they declare. -/
theorem entries_gives (h : r.Agrees w e opened) (scope : Scope) : ∀ members : List TypeMember,
    (r.entries w scope members).Gives opened (entriesOf w e.schema scope members)
  | [] => .pure _
  | member :: rest => by
      rw [entries, entriesOf]
      exact (entry_gives h scope member).bind ((entries_gives h scope rest).map _)

end

/-- Type parameters are read to what they stand for. -/
theorem params_gives (h : r.Agrees w e opened) (params : List TypeParam) :
    ∀ (args : List Schema) (scope : Scope),
      (r.params w params args scope).Gives opened (bindParams w e.schema params args scope) := by
  induction params with
  | nil => exact fun _ scope => .pure scope
  | cons param rest ih =>
      intro args scope
      cases args with
      | cons arg others => exact Reading.Gives.bind (.pure arg) (ih others _)
      | nil => exact (declared_gives h scope param.default).bind (ih [] _)

/-- What an interface inherits is read, later parents over earlier ones. -/
theorem inherited_gives (h : r.Agrees w e opened) (scope : Scope) (parents : List Heritage) :
    ∀ merged : ObjectSchema,
      (r.inherited w scope merged parents).Gives opened
        ((parents.filterMap fun parent => parent.name?.bind fun name =>
          object? (schemaOf w e.schema scope (.reference name (parent.args.map (·.type))))).foldl
            ObjectSchema.merge merged) := by
  induction parents with
  | nil => exact fun merged => .pure merged
  | cons parent rest ih =>
      intro merged
      rw [Resolver.inherited, List.filterMap_cons]
      cases parent.name? with
      | none => exact Reading.Gives.bind (.pure _) (ih merged)
      | some name =>
          refine (schema_gives h scope _).bind ?_
          rw [Option.bind_some]
          generalize schemaOf w e.schema scope (.reference name (parent.args.map (·.type))) = schema
          cases schema with
          | object shape => exact ih (merged.merge shape)
          | _ => exact ih merged

/-- The fields of a class are read to the properties that they declare. -/
theorem fields_gives (h : r.Agrees w e opened) (scope : Scope) (fields : List ClassField) :
    (r.fields w scope fields).Gives opened (fields.map fun field =>
      ⟨field.name, declaredSchema w e.schema scope field.type, !field.optional⟩) := by
  induction fields with
  | nil => exact .pure _
  | cons field rest ih =>
      rw [Resolver.fields, List.map_cons]
      exact (declared_gives h scope field.type).bind (ih.map _)

/-- A declaration is read to its schema. -/
theorem declaration_gives (h : r.Agrees w e opened) (d : Declaration) (args : List Schema) :
    (r.declaration w d args).Gives opened (declarationSchema w e.schema d args) := by
  rw [declaration, declarationSchema]
  cases d.node with
  | interfaceNode decl =>
      refine (params_gives h decl.params args _).bind ?_
      refine (inherited_gives h _ decl.parents .empty).bind ?_
      exact (entries_gives h _ decl.members).map _
  | aliasNode decl => exact (params_gives h decl.params args _).bind (schema_gives h _ _)
  | classNode value =>
      refine (params_gives h value.params args _).bind ?_
      exact (fields_gives h _ (classFields value)).map _
  | enumNode | functionNode | variableNode => exact .pure _

/-! ## Callbacks -/

/-- A reference is read to the callback that it stands for. -/
theorem referencedSignature_gives (h : r.Agrees w e opened) (scope : Scope) (name : String)
    (args : List TypeExpr) :
    (r.referencedSignature w scope name args).Gives opened
      (referencedCallback? w e scope name args) := by
  rw [referencedSignature, referencedCallback?]
  split
  · exact .pure _
  · split
    · exact .pure _
    · cases hd : w.type? scope.file name with
      | none => exact .pure _
      | some d =>
          -- Only an alias is looked into; the other kinds of types are no callbacks.
          cases hnode : d.node with
          | aliasNode =>
              simp only [hnode]
              exact h.callback d (Workspace.resolve?_declares hd) args scope
          | _ =>
              simp only [hnode]
              exact .pure none

mutual

/-- A type is read to the callback that it stands for. -/
theorem signature_gives (h : r.Agrees w e opened) (scope : Scope) : ∀ type : TypeExpr,
    (r.signature w scope type).Gives opened (callbackOf? w e scope type)
  | .function parameter => .pure _
  | .paren type => by
      rw [signature, callbackOf?]
      exact signature_gives h scope type
  | .union members => by
      rw [signature, callbackOf?]
      exact soleSignature_gives h scope members
  | .reference (.ident name) args => by
      rw [signature, callbackOf?]
      exact referencedSignature_gives h scope name args
  | .reference (.qualified _ _) _ | .keyword _ | .literal _ | .object _ | .array _ | .tuple _
  | .optional _ | .rest _ | .intersection _ | .readonly _ | .keyof _ | .indexed _ _ | .mapped
  | .predicate | .other => .pure none

/-- The only type with a value is read to the callback that it stands for. -/
theorem soleSignature_gives (h : r.Agrees w e opened) (scope : Scope) :
    ∀ types : List TypeExpr,
      (r.soleSignature w scope types).Gives opened (soleCallback? w e scope types)
  | [] => .pure none
  | type :: rest => by
      rw [soleSignature, soleCallback?]
      split
      · exact soleSignature_gives h scope rest
      · split
        · exact signature_gives h scope type
        · exact .pure none

end

/-- A declared type is read to the callback that it stands for. -/
theorem declaredSignature_gives (h : r.Agrees w e opened) (scope : Scope)
    (type : Option TypeExpr) :
    (r.declaredSignature w scope type).Gives opened (type.bind (callbackOf? w e scope)) := by
  cases type with
  | none => exact .pure none
  | some type => exact signature_gives h scope type

/-- An alias is read to the callback that it stands for. -/
theorem aliasSignature_gives (h : r.Agrees w e opened) (d : Declaration) (args : List TypeExpr)
    (scope : Scope) :
    (r.aliasSignature w d args scope).Gives opened (aliasCallback? w e d args scope) := by
  rw [aliasSignature, aliasCallback?]
  cases d.node with
  | aliasNode decl =>
      refine (schemas_gives h scope args).bind ?_
      exact (params_gives h decl.params _ _).bind (signature_gives h _ _)
  | _ => exact .pure none

/-! ## Members -/

/-- A part of an object type is read to the member that it declares. -/
theorem ownMember_gives (h : r.Agrees w e opened) (scope : Scope) (member : TypeMember) :
    (r.ownMember w scope member).Gives opened (ownMember? w e scope member) := by
  cases member with
  | property start key optional type =>
      rw [ownMember, ownMember?]
      cases key.name? with
      | some name => exact (declaredSignature_gives h scope type).map _
      | none => exact .pure _
  | method | getter | other => exact .pure _

/-- The parts of an object type are read to the members that they declare. -/
theorem ownShape_gives (h : r.Agrees w e opened) (scope : Scope) (members : List TypeMember) :
    (r.ownShape w scope members).Gives opened (ownMembers w e scope members) := by
  induction members with
  | nil => exact .pure _
  | cons member rest ih =>
      have hmembers : ownMembers w e scope (member :: rest) =
          (ownMember? w e scope member).toList ++ ownMembers w e scope rest := by
        rw [ownMembers, List.filterMap_cons]
        cases ownMember? w e scope member with
        | some first => rfl
        | none => rfl
      rw [ownShape, hmembers]
      exact (ownMember_gives h scope member).bind (ih.map _)

/-- What a name refers to is read to its members. -/
theorem declaredShape_gives (h : r.Agrees w e opened) (scope : Scope) (args : List TypeExpr)
    (declaration : Option Declaration) (hd : ∀ d, declaration = some d → w.Declares .type d) :
    (r.declaredShape w scope args declaration).Gives opened
      (declaredMembers w e scope args declaration) := by
  cases declaration with
  | none => exact .pure _
  | some d => exact (schemas_gives h scope args).bind (h.members d (hd d rfl) _)

mutual

/-- A type is read to its members. -/
theorem shape_gives (h : r.Agrees w e opened) (scope : Scope) : ∀ type : TypeExpr,
    (r.shape w scope type).Gives opened (membersOf w e scope type)
  | .object members => by
      rw [shape, membersOf]
      exact ownShape_gives h scope members
  | .paren type => by
      rw [shape, membersOf]
      exact shape_gives h scope type
  | .readonly type => by
      rw [shape, membersOf]
      exact shape_gives h scope type
  | .intersection members => by
      rw [shape, membersOf]
      exact mergedShape_gives h scope members []
  | .reference (.ident name) args => by
      rw [shape, membersOf]
      exact namedShape_gives h scope name args
  | .reference (.qualified (.ident outer) name) args => by
      rw [shape, membersOf]
      exact declaredShape_gives h scope args _ fun _ => Workspace.qualifiedType?_declares
  | .reference (.qualified (.qualified _ _) _) _ | .keyword _ | .literal _ | .array _ | .tuple _
  | .optional _ | .rest _ | .union _ | .keyof _ | .indexed _ _ | .mapped | .predicate
  | .function _ | .other => .pure _

/-- Several types are read to their members, later ones over earlier ones. -/
theorem mergedShape_gives (h : r.Agrees w e opened) (scope : Scope) :
    ∀ (types : List TypeExpr) (merged : List ShapeMember),
      (r.mergedShape w scope merged types).Gives opened (mergedMembersOf w e scope merged types)
  | [], merged => .pure _
  | type :: rest, merged => by
      rw [mergedShape, mergedMembersOf]
      exact (shape_gives h scope type).bind (mergedShape_gives h scope rest _)

/-- A name with arguments is read to the members of the type that it stands for. -/
theorem namedShape_gives (h : r.Agrees w e opened) (scope : Scope) (name : String) :
    ∀ args : List TypeExpr,
      (r.namedShape w scope name args).Gives opened (namedMembers w e scope name args)
  | [] => by
      rw [namedShape, namedMembers]
      cases shapeChange? name with
      | some change => exact .pure _
      | none => exact declaredShape_gives h scope [] _ fun _ => Workspace.resolve?_declares
  | first :: rest => by
      rw [namedShape, namedMembers]
      cases shapeChange? name with
      | some change => exact (shape_gives h scope first).map _
      | none =>
          exact declaredShape_gives h scope (first :: rest) _ fun _ => Workspace.resolve?_declares

end

/-- A named parent is read to its members. -/
theorem parentShape_gives (h : r.Agrees w e opened) (scope : Scope) (parent : Heritage) :
    (r.parentShape w scope parent).Gives opened
      (match parent.name? with
        | some (.ident name) => namedMembers w e scope name (parent.args.map (·.type))
        | _ => []) := by
  rw [parentShape]
  cases parent.name? with
  | none => exact .pure _
  | some name =>
      cases name with
      | ident name => exact namedShape_gives h scope name _
      | qualified => exact .pure _

/-- Named parents are read to their members, later ones over earlier ones. -/
theorem inheritedShape_gives (h : r.Agrees w e opened) (scope : Scope) (parents : List Heritage) :
    ∀ merged : List ShapeMember,
      (r.inheritedShape w scope merged parents).Gives opened
        ((parents.map fun parent =>
          match parent.name? with
          | some (.ident name) => namedMembers w e scope name (parent.args.map (·.type))
          | _ => []).foldl mergeMembers merged) := by
  induction parents with
  | nil => exact fun merged => .pure merged
  | cons parent rest ih =>
      intro merged
      rw [inheritedShape, List.map_cons, List.foldl_cons]
      exact (parentShape_gives h scope parent).bind (ih _)

/-- The fields of a class are read to the members that they declare. -/
theorem fieldShape_gives (h : r.Agrees w e opened) (scope : Scope) (fields : List ClassField) :
    (r.fieldShape w scope fields).Gives opened (fields.map fun field =>
      ⟨field.name, field.optional, field.type, field.type.bind (callbackOf? w e scope), field.start,
        scope⟩) := by
  induction fields with
  | nil => exact .pure _
  | cons field rest ih =>
      rw [fieldShape, List.map_cons]
      exact (declaredSignature_gives h scope field.type).bind (ih.map _)

/-- A declaration is read to its members. -/
theorem declarationShape_gives (h : r.Agrees w e opened) (d : Declaration) (args : List Schema) :
    (r.declarationShape w d args).Gives opened (declarationMembers w e d args) := by
  rw [declarationShape, declarationMembers]
  cases d.node with
  | interfaceNode decl =>
      refine (params_gives h decl.params args _).bind ?_
      refine (inheritedShape_gives h _ decl.parents []).bind ?_
      exact (ownShape_gives h _ decl.members).map _
  | aliasNode decl => exact (params_gives h decl.params args _).bind (shape_gives h _ _)
  | classNode value =>
      exact (params_gives h value.params args _).bind (fieldShape_gives h _ (classFields value))
  | enumNode | functionNode | variableNode => exact .pure _

/-- A question is answered like the expander answers it. -/
theorem ask_gives (h : r.Agrees w e opened) (q : TypeQuery) :
    (r.ask w q).Gives opened (e.answer w q) := by
  cases q with
  | schema scope type => exact (schema_gives h scope type).map _
  | members scope type => exact (shape_gives h scope type).map _
  | named scope name args => exact (namedShape_gives h scope name args).map _
  | callback scope type => exact (signature_gives h scope type).map _

end Resolver

/-! ## How deep expansions nest -/

namespace Workspace

variable {w : Workspace} {opened : List DeclarationKey}

/-- The keys of the types that the workspace declares. -/
def typeKeys (w : Workspace) : List DeclarationKey :=
  (w.symbols.toList.flatMap FileSymbols.types).map fun entry => entry.2.key

/-- There are as many keys as declarations. -/
theorem length_typeKeys (w : Workspace) : w.typeKeys.length = w.typeCount := by
  rw [typeKeys, typeCount, List.length_map]

/-- What the workspace declares as a type is one of its types. -/
theorem Declares.key_mem {d : Declaration} (h : w.Declares .type d) : d.key ∈ w.typeKeys := by
  obtain ⟨source, localName, hd⟩ := h
  have hentry : (localName, d) ∈ (w.symbolsOf source).types := Dictionary.mem_of_find? hd
  rcases w.symbolsOf_eq_or_mem source with hempty | hmem
  · rw [hempty] at hentry
    exact absurd hentry List.not_mem_nil
  · exact List.mem_map.mpr ⟨_, List.mem_flatMap.mpr ⟨_, hmem, hentry⟩, rfl⟩

/-- The keys of the declared types that are not open. -/
def closedKeys (w : Workspace) (opened : List DeclarationKey) : Finset DeclarationKey :=
  w.typeKeys.toFinset \ opened.toFinset

/-- No more declarations are closed than there are. -/
theorem card_closedKeys_le (w : Workspace) (opened : List DeclarationKey) :
    (w.closedKeys opened).card ≤ w.typeCount := by
  calc (w.closedKeys opened).card
      ≤ w.typeKeys.toFinset.card := Finset.card_le_card Finset.sdiff_subset
    _ ≤ w.typeKeys.length := List.toFinset_card_le _
    _ = w.typeCount := w.length_typeKeys

/-- Opening a declaration leaves fewer closed. -/
theorem card_closedKeys_lt {d : Declaration} (h : w.Declares .type d) (hd : d.key ∉ opened) :
    (w.closedKeys (d.key :: opened)).card < (w.closedKeys opened).card := by
  refine Finset.card_lt_card (Finset.ssubset_iff_of_subset ?_ |>.mpr ⟨d.key, ?_, ?_⟩)
  · refine Finset.sdiff_subset_sdiff (Finset.Subset.refl _) ?_
    rw [List.toFinset_cons]
    exact Finset.subset_insert _ _
  · exact Finset.mem_sdiff.mpr ⟨List.mem_toFinset.mpr h.key_mem, fun hopen =>
      hd (List.mem_toFinset.mp hopen)⟩
  · intro hclosed
    exact (Finset.mem_sdiff.mp hclosed).2 (List.mem_toFinset.mpr List.mem_cons_self)

/-- With room for as many expansions as declarations are closed, a resolver looks into every type
    like an expander with as much room. -/
theorem resolverWithin_agrees (room : Nat) : ∀ (depth : Nat) (opened : List DeclarationKey),
    (w.closedKeys opened).card ≤ room → (w.closedKeys opened).card ≤ depth →
      (resolverWithin w room).Agrees w (expanderWithin w (depth + 1) opened) opened := by
  induction room with
  | zero =>
      intro depth opened hroom _
      -- Every declared type is open already, so none is looked into.
      have hclosed : ∀ d, w.Declares .type d → d.key ∉ opened → False := by
        intro d hd hkey
        have hlt := card_closedKeys_lt hd hkey
        omega
      exact
        { expand := fun d hd _ => .whileOpen fun hkey => (hclosed d hd hkey).elim
          members := fun d hd _ => .whileOpen fun hkey => (hclosed d hd hkey).elim
          callback := fun d hd _ _ => .whileOpen fun hkey => (hclosed d hd hkey).elim }
  | succ room ih =>
      intro depth opened hroom hdepth
      -- Opening a declaration takes one from the room and one from what is closed.
      have hinner : ∀ d, w.Declares .type d → d.key ∉ opened →
          (resolverWithin w room).Agrees w (expanderWithin w depth (d.key :: opened))
            (d.key :: opened) := by
        intro d hd hkey
        have hlt := card_closedKeys_lt hd hkey
        cases depth with
        | zero => omega
        | succ depth => exact ih depth (d.key :: opened) (by omega) (by omega)
      exact
        { expand := fun d hd args =>
            .whileOpen fun hkey => Resolver.declaration_gives (hinner d hd hkey) d args
          members := fun d hd args =>
            .whileOpen fun hkey => Resolver.declarationShape_gives (hinner d hd hkey) d args
          callback := fun d hd args scope =>
            .whileOpen fun hkey => Resolver.aliasSignature_gives (hinner d hd hkey) d args scope }

/-- With room for as many expansions as there are declarations, a resolver looks into every type
    like the expander inside the open declarations. -/
theorem resolver_agrees (w : Workspace) (spare : Nat) (opened : List DeclarationKey) :
    (resolverWithin w (w.typeCount + spare)).Agrees w (expanderWithin w (w.typeCount + 1) opened)
      opened := by
  have hcard := w.card_closedKeys_le opened
  exact resolverWithin_agrees _ _ _ (by omega) hcard

/-- **The path**: with room for all declarations, the expander hands the path down by its open
    declarations alone. What is open is left open, and anything else is looked into by the expander
    that has it on its path. -/
theorem expander_hands_down_path {d : Declaration} (hd : w.Declares .type d)
    (opened : List DeclarationKey) :
    let outside := expanderWithin w (w.typeCount + 1) opened
    let inside := expanderWithin w (w.typeCount + 1) (d.key :: opened)
    (∀ args, outside.schema d args =
      if opened.contains d.key then .unconstrained else declarationSchema w inside.schema d args) ∧
    (∀ args, outside.members d args =
      if opened.contains d.key then [] else declarationMembers w inside d args) ∧
    ∀ args scope, outside.callback d args scope =
      if opened.contains d.key then none else aliasCallback? w inside d args scope := by
  intro outside inside
  -- One resolver reads both sides: with one expansion to spare it opens the declaration itself.
  have hinside := w.resolver_agrees 0 (d.key :: opened)
  have houtside := w.resolver_agrees 1 opened
  refine ⟨fun args => ?_, fun args => ?_, fun args scope => ?_⟩
  · exact (houtside.expand d hd args).unique
      (.whileOpen fun _ => Resolver.declaration_gives hinside d args)
  · exact (houtside.members d hd args).unique
      (.whileOpen fun _ => Resolver.declarationShape_gives hinside d args)
  · exact (houtside.callback d hd args scope).unique
      (.whileOpen fun _ => Resolver.aliasSignature_gives hinside d args scope)

end Workspace

/-! ## One resolver for several types -/

namespace Resolver

variable {w : Workspace} {r : Resolver} {opened : List DeclarationKey}

/-- Questions that are asked one after another are answered one by one. -/
theorem mapM_ask_gives {e : Expander} (h : r.Agrees w e opened) (questions : List TypeQuery) :
    (questions.mapM (r.ask w)).Gives opened (questions.map (e.answer w)) := by
  induction questions with
  | nil => exact .pure []
  | cons q rest ih =>
      rw [List.mapM_cons, List.map_cons]
      exact (ask_gives h q).bind (ih.map _)

/-- What a class implements is read with one resolver. -/
theorem readImplemented_gives (h : r.Agrees w w.expander opened) (scope : Scope)
    (parents : List Heritage) : ∀ s : Surface,
      (Surface.readImplemented w r scope s parents).Gives opened
        ((parents.map fun parent =>
          match parent.name? with
          | some (.ident name) => w.namedMembersIn scope name (parent.args.map (·.type))
          | _ => []).foldl Surface.addShape s) := by
  induction parents with
  | nil => exact fun s => .pure s
  | cons parent rest ih =>
      intro s
      rw [Surface.readImplemented, List.map_cons, List.foldl_cons]
      exact (parentShape_gives h scope parent).bind (ih _)

/-- A class is read with one resolver. -/
theorem readClassWith_gives (h : r.Agrees w w.expander opened) (s : Surface)
    (value : Source.ClassDef) :
    (s.readClassWith w r value).Gives opened (s.readClass w value) := by
  rw [Surface.readClassWith, Surface.readClass]
  cases Surface.basePropsType? value with
  | none => exact Reading.Gives.bind (.pure []) (readImplemented_gives h _ value.implemented _)
  | some type =>
      exact (shape_gives h _ type).bind (readImplemented_gives h _ value.implemented _)

end Resolver

/-- **The open declarations are restored**: with room for as many expansions inside one another as
    there are declarations, or more, every question is answered, whatever is open already; the
    answer is that of the expander that hands the open declarations down, and the same declarations
    are open afterwards. So a resolver that is asked several questions, or that reads a class,
    answers each like a fresh one. -/
theorem Workspace.resolver_restores_open_declarations (w : Workspace) (spare : Nat) :
    let r := resolverWithin w (w.typeCount + spare)
    (∀ (opened : List DeclarationKey) (q : TypeQuery),
      (r.ask w q).run opened =
        some ((expanderWithin w (w.typeCount + 1) opened).answer w q, opened)) ∧
    (∀ questions : List TypeQuery,
      (questions.mapM (r.ask w)).run [] = some (questions.map (w.expander.answer w), [])) ∧
    ∀ (s : Surface) (value : Source.ClassDef),
      (s.readClassWith w r value).run [] = some (s.readClass w value, []) := by
  intro r
  refine ⟨fun opened q => ?_, fun questions => ?_, fun s value => ?_⟩
  · exact Resolver.ask_gives (w.resolver_agrees spare opened) q
  · exact Resolver.mapM_ask_gives (w.resolver_agrees spare []) questions
  · exact Resolver.readClassWith_gives (w.resolver_agrees spare []) s value

end ElementCatalog
