import ElementCatalog.Proofs.NameReadings
import ElementCatalog.Proofs.OpenDeclarations
import ElementCatalog.Proofs.Renumbering
import Mathlib.Data.List.Forall2

/-!
# Types in renumbered files

Toward: a type that is read in a file and in its copy under a new id has the same schema, and
members and a callback that differ in nothing but the ids of the files that they are read in.  The
route:

* names mean the same declarations, so expanders that look alike into declarations read types alike,
  and likewise the parts of a declaration;
* expanders look alike into declarations by induction on the number of declarations that are not
  open, since ids that are told apart stay told apart.
-/

namespace ElementCatalog

open Source (TypeExpr TypeMember TypeParam ClassDef InterfaceDecl)
open ElementCatalog.Types

/-- A file of the workspace, and its copy under a new id. -/
def SameFile (w : Workspace) (ρ : Nat → Nat) (file file' : SourceFile) : Prop :=
  file ∈ w.program.files ∧ file' = file.renumber ρ

/-- Two scopes differ in the id of their file only. -/
structure SameScope (w : Workspace) (ρ : Nat → Nat) (scope scope' : Scope) : Prop where
  file : SameFile w ρ scope.file scope'.file
  bindings : scope'.bindings = scope.bindings

/-- Two callbacks differ in the id of a file only. -/
structure SameCallback (w : Workspace) (ρ : Nat → Nat) (callback callback' : Callback) :
    Prop where
  parameter : callback'.parameter = callback.parameter
  scope : SameScope w ρ callback.scope callback'.scope

/-- Two members of shapes differ in the ids of files only. -/
structure SameMember (w : Workspace) (ρ : Nat → Nat) (m m' : ShapeMember) : Prop where
  name : m'.name = m.name
  optional : m'.optional = m.optional
  type : m'.type = m.type
  callback : Option.Rel (SameCallback w ρ) m.callback m'.callback
  anchor : m'.anchor = m.anchor
  scope : SameScope w ρ m.scope m'.scope

/-- Two shapes differ in the ids of files only. -/
abbrev SameShape (w : Workspace) (ρ : Nat → Nat) (shape shape' : List ShapeMember) : Prop :=
  List.Forall₂ (SameMember w ρ) shape shape'

/-- Two expanders look alike into declarations that differ in the ids of their files only. -/
structure SameExpander (w : Workspace) (ρ : Nat → Nat) (e e' : Expander) : Prop where
  schema : ∀ d, w.Declares .type d → ∀ args, e.schema d args = e'.schema (d.renumber ρ) args
  members : ∀ d, w.Declares .type d → ∀ args,
    SameShape w ρ (e.members d args) (e'.members (d.renumber ρ) args)
  callback : ∀ d, w.Declares .type d → ∀ args scope scope', SameScope w ρ scope scope' →
    Option.Rel (SameCallback w ρ) (e.callback d args scope)
      (e'.callback (d.renumber ρ) args scope')

/-- The scope of a file and that of its copy. -/
theorem SameScope.ofFile {w : Workspace} {ρ : Nat → Nat} {file file' : SourceFile}
    (h : SameFile w ρ file file') : SameScope w ρ (.ofFile file) (.ofFile file') :=
  ⟨h, rfl⟩

/-- Letting a type parameter stand for a schema keeps scopes the same. -/
theorem SameScope.bind {w : Workspace} {ρ : Nat → Nat} {scope scope' : Scope}
    (h : SameScope w ρ scope scope') (name : String) (schema : Schema) :
    SameScope w ρ (scope.bind name schema) (scope'.bind name schema) :=
  ⟨h.file, congrArg (Dictionary.set · name schema) h.bindings⟩

/-! ## Shapes -/

namespace SameShape

variable {w : Workspace} {ρ : Nat → Nat} {shape shape' : List ShapeMember}

/-- Filtering by names keeps shapes the same. -/
theorem filter (h : SameShape w ρ shape shape') (keep : String → Bool) :
    SameShape w ρ (shape.filter fun m => keep m.name) (shape'.filter fun m => keep m.name) := by
  refine List.rel_filter (fun m m' hm => ?_) h
  dsimp only
  rw [hm.name]

/-- Merging keeps shapes the same. -/
theorem merge {members members' : List ShapeMember} (h : SameShape w ρ shape shape')
    (hmembers : SameShape w ρ members members') :
    SameShape w ρ (mergeMembers shape members) (mergeMembers shape' members') := by
  refine List.rel_foldl (fun before before' hbefore m m' hm => ?_) h hmembers
  rw [addMember, addMember, hm.name]
  exact List.rel_append (filter hbefore (· != m.name)) (.cons hm .nil)

/-- A change keeps shapes the same. -/
theorem change (h : SameShape w ρ shape shape') (keys : List String) : ∀ c : ShapeChange,
    SameShape w ρ (c.apply keys shape) (c.apply keys shape')
  | .setOptional _ => by
      refine List.rel_map (fun m m' hm => ?_) h
      exact ⟨hm.name, rfl, hm.type, hm.callback, hm.anchor, hm.scope⟩
  | .keep => h
  | .pick => h.filter keys.contains
  | .omit => h.filter fun name => !keys.contains name

end SameShape

namespace Workspace.Renumbers

/-! ## Types that are read by like expanders -/

section Reading

variable {ρ : Nat → Nat} {w w' : Workspace} {e e' : Expander} {scope scope' : Scope}

/-- The members of an enumeration do not depend on the ids of files. -/
@[simp] theorem enumMembers?_renumber (found : Option Declaration) :
    enumMembers? (found.map (·.renumber ρ)) = enumMembers? found := by
  cases found with
  | none => rfl
  | some d =>
      obtain ⟨name, file, node, anchors, start⟩ := d
      cases node <;> rfl

/-- Names in scopes that differ in the ids of files only are read alike. -/
theorem namesAlike (h : Renumbers ρ w w') (he : SameExpander w ρ e e')
    (hscope : SameScope w ρ scope scope') :
    NamesAlike w w' e.schema e'.schema scope scope' := by
  obtain ⟨⟨hfile, hcopy⟩, hbindings⟩ := hscope
  -- Bound and well-known names do not depend on files; declared names are expanded alike.
  constructor
  · intro name args hargs
    rw [schemaOf, schemaOf, hbindings]
    cases Dictionary.find? scope.bindings name with
    | some bound => rfl
    | none =>
        cases wellKnown? name with
        | some rule =>
            dsimp only
            rw [firstSchema_eq, firstSchema_eq, hargs]
        | none =>
            dsimp only
            rw [hcopy, type?, type?, h.resolve? hfile]
            cases hd : w.resolve? .type scope.file name with
            | none => rfl
            | some d =>
                dsimp only [Option.map_some]
                rw [hargs]
                exact he.schema d (resolve?_declares hd) _
  · intro outer name args hargs
    have henum : enumMembers? (w'.type? scope'.file outer) =
        enumMembers? (w.type? scope.file outer) := by
      rw [hcopy, type?, type?, h.resolve? hfile, enumMembers?_renumber]
    rw [schemaOf, schemaOf, henum]
    cases enumMembers? (w.type? scope.file outer) with
    | some members => rfl
    | none =>
        dsimp only
        rw [hcopy, h.qualifiedType? hfile]
        cases hd : w.qualifiedType? scope.file outer name with
        | none => rfl
        | some d =>
            dsimp only [Option.map_some]
            rw [hargs]
            exact he.schema d (qualifiedType?_declares hd) _

/-- Type parameters are bound alike. -/
theorem bindParams (h : Renumbers ρ w w') (he : SameExpander w ρ e e')
    (params : List TypeParam) : ∀ (args : List Schema) {scope scope' : Scope},
      SameScope w ρ scope scope' →
        SameScope w ρ (bindParams w e.schema params args scope)
          (ElementCatalog.bindParams w' e'.schema params args scope') := by
  induction params with
  | nil => exact fun _ _ _ hscope => hscope
  | cons param rest ih =>
      intro args scope scope' hscope
      cases args with
      | cons arg others => exact ih others (hscope.bind param.name arg)
      | nil =>
          rw [ElementCatalog.bindParams, ElementCatalog.bindParams,
            declaredSchema_alike (h.namesAlike he hscope)]
          exact ih [] (hscope.bind param.name _)

/-! ### Callbacks -/

/-- A reference stands for the same callback. -/
theorem referencedCallback? (h : Renumbers ρ w w') (he : SameExpander w ρ e e')
    (hscope : SameScope w ρ scope scope') (name : String) (args : List TypeExpr) :
    Option.Rel (SameCallback w ρ) (referencedCallback? w e scope name args)
      (Types.referencedCallback? w' e' scope' name args) := by
  rw [Types.referencedCallback?, Types.referencedCallback?, hscope.bindings]
  split
  · exact .some ⟨rfl, hscope⟩
  · split
    · exact .none
    · obtain ⟨hfile, hcopy⟩ := hscope.file
      rw [hcopy, type?, type?, h.resolve? hfile]
      cases hd : w.resolve? .type scope.file name with
      | none =>
          dsimp only [Option.map_none]
          split
          · exact .some ⟨rfl, hscope⟩
          · exact .none
      | some d =>
          dsimp only [Option.map_some, Declaration.renumber]
          split
          · exact he.callback d (resolve?_declares hd) args scope scope' hscope
          · exact .none

mutual

/-- A type stands for the same callback. -/
theorem callbackOf? (h : Renumbers ρ w w') (he : SameExpander w ρ e e')
    (hscope : SameScope w ρ scope scope') : ∀ type : TypeExpr,
    Option.Rel (SameCallback w ρ) (callbackOf? w e scope type)
      (Types.callbackOf? w' e' scope' type)
  | .function _ => .some ⟨rfl, hscope⟩
  | .paren type => callbackOf? h he hscope type
  | .union members => soleCallback? h he hscope members
  | .reference (.ident name) args => h.referencedCallback? he hscope name args
  | .reference (.qualified _ _) _ | .keyword _ | .literal _ | .object _ | .array _ | .tuple _
  | .optional _ | .rest _ | .intersection _ | .readonly _ | .keyof _ | .indexed _ _ | .mapped
  | .predicate | .other => .none

/-- The only type with a value stands for the same callback. -/
theorem soleCallback? (h : Renumbers ρ w w') (he : SameExpander w ρ e e')
    (hscope : SameScope w ρ scope scope') : ∀ types : List TypeExpr,
    Option.Rel (SameCallback w ρ) (soleCallback? w e scope types)
      (Types.soleCallback? w' e' scope' types)
  | [] => .none
  | type :: rest => by
      rw [Types.soleCallback?, Types.soleCallback?]
      split
      · exact soleCallback? h he hscope rest
      · split
        · exact callbackOf? h he hscope type
        · exact .none

end

/-- A declared type stands for the same callback. -/
theorem declaredCallback? (h : Renumbers ρ w w') (he : SameExpander w ρ e e')
    (hscope : SameScope w ρ scope scope') (type : Option TypeExpr) :
    Option.Rel (SameCallback w ρ) (type.bind (Types.callbackOf? w e scope))
      (type.bind (Types.callbackOf? w' e' scope')) := by
  cases type with
  | none => exact .none
  | some type => exact h.callbackOf? he hscope type

/-! ### Members -/

/-- An object type has the same members. -/
theorem ownMembers (h : Renumbers ρ w w') (he : SameExpander w ρ e e')
    (hscope : SameScope w ρ scope scope') (members : List TypeMember) :
    SameShape w ρ (ownMembers w e scope members) (Types.ownMembers w' e' scope' members) := by
  refine List.rel_filterMap (R := Eq) ?_ (List.forall₂_same.mpr fun _ _ => rfl)
  rintro member _ rfl
  cases member with
  | property start key optional type =>
      have hcallback := h.declaredCallback? he hscope type
      rw [ownMember?, ownMember?]
      cases key.name? with
      | none => exact .none
      | some name => exact .some ⟨rfl, rfl, rfl, hcallback, rfl, hscope⟩
  | method start key optional parameter =>
      rw [ownMember?, ownMember?]
      cases key.name? with
      | none => exact .none
      | some name => exact .some ⟨rfl, rfl, rfl, .some ⟨rfl, hscope⟩, rfl, hscope⟩
  | getter start key type =>
      rw [ownMember?, ownMember?]
      cases key.name? with
      | none => exact .none
      | some name => exact .some ⟨rfl, rfl, rfl, .none, rfl, hscope⟩
  | other => exact .none

/-- A declared type has the same members. -/
theorem declaredMembers (h : Renumbers ρ w w') (he : SameExpander w ρ e e')
    (hscope : SameScope w ρ scope scope') (args : List TypeExpr) {found : Option Declaration}
    (hfound : ∀ d, found = some d → w.Declares .type d) :
    SameShape w ρ (declaredMembers w e scope args found)
      (Types.declaredMembers w' e' scope' args (found.map (·.renumber ρ))) := by
  cases found with
  | none => exact .nil
  | some d =>
      rw [Types.declaredMembers, Option.map_some, Types.declaredMembers,
        schemasOf_alike (h.namesAlike he hscope)]
      exact he.members d (hfound d rfl) _

mutual

/-- A type has the same members. -/
theorem membersOf (h : Renumbers ρ w w') (he : SameExpander w ρ e e')
    (hscope : SameScope w ρ scope scope') : ∀ type : TypeExpr,
    SameShape w ρ (membersOf w e scope type) (Types.membersOf w' e' scope' type)
  | .object members => h.ownMembers he hscope members
  | .paren type => membersOf h he hscope type
  | .readonly type => membersOf h he hscope type
  | .intersection members => mergedMembersOf h he hscope members .nil
  | .reference (.ident name) args => namedMembers h he hscope name args
  | .reference (.qualified (.ident outer) name) args => by
      rw [Types.membersOf, Types.membersOf, hscope.file.2, h.qualifiedType? hscope.file.1]
      exact h.declaredMembers he hscope args fun _ => qualifiedType?_declares
  | .reference (.qualified (.qualified _ _) _) _ | .keyword _ | .literal _ | .array _ | .tuple _
  | .optional _ | .rest _ | .union _ | .keyof _ | .indexed _ _ | .mapped | .predicate
  | .function _ | .other => .nil

/-- Several types have the same members, merged. -/
theorem mergedMembersOf (h : Renumbers ρ w w') (he : SameExpander w ρ e e')
    (hscope : SameScope w ρ scope scope') : ∀ (types : List TypeExpr)
    {shape shape' : List ShapeMember}, SameShape w ρ shape shape' →
      SameShape w ρ (mergedMembersOf w e scope shape types)
        (Types.mergedMembersOf w' e' scope' shape' types)
  | [], _, _, hshape => hshape
  | type :: rest, _, _, hshape =>
      mergedMembersOf h he hscope rest (hshape.merge (membersOf h he hscope type))

/-- A name with arguments has the same members. -/
theorem namedMembers (h : Renumbers ρ w w') (he : SameExpander w ρ e e')
    (hscope : SameScope w ρ scope scope') (name : String) : ∀ args : List TypeExpr,
    SameShape w ρ (namedMembers w e scope name args)
      (Types.namedMembers w' e' scope' name args)
  | [] => by
      rw [Types.namedMembers, Types.namedMembers, hscope.file.2, type?, type?,
        h.resolve? hscope.file.1]
      cases shapeChange? name with
      | some change => exact .nil
      | none => exact h.declaredMembers he hscope [] fun _ => resolve?_declares
  | first :: rest => by
      rw [Types.namedMembers, Types.namedMembers, hscope.file.2, type?, type?,
        h.resolve? hscope.file.1]
      cases shapeChange? name with
      | some change => exact (membersOf h he hscope first).change _ change
      | none => exact h.declaredMembers he hscope (first :: rest) fun _ => resolve?_declares

end

/-! ### Declarations -/

/-- An interface has the same members. -/
theorem interfaceMembers (h : Renumbers ρ w w') (he : SameExpander w ρ e e')
    (hscope : SameScope w ρ scope scope') (decl : InterfaceDecl) :
    SameShape w ρ (interfaceMembers w e scope decl)
      (Types.interfaceMembers w' e' scope' decl) := by
  refine SameShape.merge ?_ (h.ownMembers he hscope decl.members)
  refine List.rel_foldl (R := SameShape w ρ) (fun _ _ hmerged _ _ hparent => hmerged.merge hparent)
    .nil (List.rel_map (R := Eq) ?_ (List.forall₂_same.mpr fun _ _ => rfl))
  rintro parent _ rfl
  dsimp only
  split
  · exact h.namedMembers he hscope _ _
  · exact .nil

/-- The instances of a class have the same members. -/
theorem classMembers (h : Renumbers ρ w w') (he : SameExpander w ρ e e')
    (hscope : SameScope w ρ scope scope') (value : ClassDef) :
    SameShape w ρ (classMembers w e scope value) (Types.classMembers w' e' scope' value) := by
  refine List.rel_map (R := Eq) ?_ (List.forall₂_same.mpr fun _ _ => rfl)
  rintro field _ rfl
  exact ⟨rfl, rfl, rfl, h.declaredCallback? he hscope field.type, rfl, hscope⟩

/-- A declaration has the same schema. -/
theorem declarationSchema (h : Renumbers ρ w w') (he : SameExpander w ρ e e') {d : Declaration}
    (hd : w.Declares .type d) (args : List Schema) :
    declarationSchema w e.schema d args =
      Types.declarationSchema w' e'.schema (d.renumber ρ) args := by
  have hparams := fun params =>
    h.namesAlike he (h.bindParams he params args (.ofFile ⟨hd.file_mem, rfl⟩))
  obtain ⟨name, file, node, anchors, start⟩ := d
  cases node with
  | interfaceNode decl => exact interfaceSchema_alike (hparams decl.params) decl
  | aliasNode decl => exact schemaOf_alike (hparams decl.params) decl.type.type
  | classNode value => exact classSchema_alike (hparams value.params) value
  | enumNode | functionNode | variableNode => rfl

/-- A declaration has the same members. -/
theorem declarationMembers (h : Renumbers ρ w w') (he : SameExpander w ρ e e') {d : Declaration}
    (hd : w.Declares .type d) (args : List Schema) :
    SameShape w ρ (declarationMembers w e d args)
      (Types.declarationMembers w' e' (d.renumber ρ) args) := by
  have hparams := fun params => h.bindParams he params args (.ofFile ⟨hd.file_mem, rfl⟩)
  obtain ⟨name, file, node, anchors, start⟩ := d
  cases node with
  | interfaceNode decl => exact h.interfaceMembers he (hparams decl.params) decl
  | aliasNode decl => exact h.membersOf he (hparams decl.params) decl.type.type
  | classNode value => exact h.classMembers he (hparams value.params) value
  | enumNode | functionNode | variableNode => exact .nil

/-- An alias stands for the same callback. -/
theorem aliasCallback? (h : Renumbers ρ w w') (he : SameExpander w ρ e e') {d : Declaration}
    (hd : w.Declares .type d) (args : List TypeExpr) (hscope : SameScope w ρ scope scope') :
    Option.Rel (SameCallback w ρ) (aliasCallback? w e d args scope)
      (Types.aliasCallback? w' e' (d.renumber ρ) args scope') := by
  have hargs := schemasOf_alike (h.namesAlike he hscope) args
  have hparams := fun params args => h.bindParams he params args (.ofFile ⟨hd.file_mem, rfl⟩)
  obtain ⟨name, file, node, anchors, start⟩ := d
  cases node with
  | aliasNode decl =>
      rw [Types.aliasCallback?, Types.aliasCallback?, hargs]
      exact h.callbackOf? he (hparams decl.params _) decl.type.type
  | interfaceNode | classNode | enumNode | functionNode | variableNode => exact .none

end Reading

/-! ## The expander -/

variable {ρ : Nat → Nat} {w w' : Workspace}

/-- A declaration is declared under the new id of its file. -/
theorem declares (h : Renumbers ρ w w') {space : NameSpace} {d : Declaration}
    (hd : w.Declares space d) : w'.Declares space (d.renumber ρ) := by
  obtain ⟨source, localName, hdeclared⟩ := hd
  refine ⟨source.renumber ρ, localName, ?_⟩
  rw [h.symbolsOf, FileSymbols.declared?_renumber, hdeclared, Option.map_some]

/-- The key of a declaration under the new id of its file. -/
def key (ρ : Nat → Nat) : DeclarationKey → DeclarationKey :=
  Prod.map ρ id

/-- A declaration is open exactly if it is under its new key. -/
theorem contains_key (h : Renumbers ρ w w') (opened : List DeclarationKey) (d : Declaration) :
    (opened.map (key ρ)).contains (d.renumber ρ).key = opened.contains d.key := by
  have hkeys : Function.Injective (key ρ) := h.injective.prodMap Function.injective_id
  rw [Bool.eq_iff_iff, List.contains_iff_mem, List.contains_iff_mem]
  exact List.mem_map_of_injective hkeys (a := d.key)

/-- Where expanders look alike inside every declaration that is not open, they look alike. -/
theorem expanderWithin_of_inside (h : Renumbers ρ w w') {opened : List DeclarationKey}
    (hinside : ∀ d, w.Declares .type d → ¬opened.contains d.key →
      SameExpander w ρ (expanderWithin w (w.typeCount + 1) (d.key :: opened))
        (expanderWithin w' (w'.typeCount + 1) ((d.key :: opened).map (key ρ)))) :
    SameExpander w ρ (expanderWithin w (w.typeCount + 1) opened)
      (expanderWithin w' (w'.typeCount + 1) (opened.map (key ρ))) where
  schema d hd args := by
    rw [(expander_hands_down_path hd opened).1,
      (expander_hands_down_path (h.declares hd) (opened.map (key ρ))).1, h.contains_key]
    split
    · rfl
    · rename_i hclosed
      exact h.declarationSchema (hinside d hd hclosed) hd args
  members d hd args := by
    rw [(expander_hands_down_path hd opened).2.1,
      (expander_hands_down_path (h.declares hd) (opened.map (key ρ))).2.1, h.contains_key]
    split
    · exact .nil
    · rename_i hclosed
      exact h.declarationMembers (hinside d hd hclosed) hd args
  callback d hd args scope scope' hscope := by
    rw [(expander_hands_down_path hd opened).2.2,
      (expander_hands_down_path (h.declares hd) (opened.map (key ρ))).2.2, h.contains_key]
    split
    · exact .none
    · rename_i hclosed
      exact h.aliasCallback? (hinside d hd hclosed) hd args hscope

/-- Expanders inside the same expansions look alike into declarations. -/
theorem expanderWithin (h : Renumbers ρ w w') (room : Nat) : ∀ opened : List DeclarationKey,
    (w.closedKeys opened).card ≤ room →
      SameExpander w ρ (expanderWithin w (w.typeCount + 1) opened)
        (Types.expanderWithin w' (w'.typeCount + 1) (opened.map (key ρ))) := by
  induction room with
  | zero =>
      intro opened hroom
      -- Nothing is left to be opened, so every declared type is open.
      refine h.expanderWithin_of_inside fun d hd hclosed => ?_
      have hlt := card_closedKeys_lt hd fun hmem => hclosed (List.contains_iff_mem.mpr hmem)
      omega
  | succ room ih =>
      intro opened hroom
      refine h.expanderWithin_of_inside fun d hd hclosed => ?_
      have hlt := card_closedKeys_lt hd fun hmem => hclosed (List.contains_iff_mem.mpr hmem)
      exact ih (d.key :: opened) (by omega)

/-- The expanders of the two workspaces look alike into declarations. -/
theorem expander (h : Renumbers ρ w w') : SameExpander w ρ w.expander w'.expander :=
  h.expanderWithin _ [] (w.card_closedKeys_le [])

/-- **Types in renumbered files**: a type has the same schema in a file and in its copy. -/
theorem schemaIn (h : Renumbers ρ w w') {scope scope' : Scope}
    (hscope : SameScope w ρ scope scope') (type : TypeExpr) :
    w'.schemaIn scope' type = w.schemaIn scope type :=
  (schemaOf_alike (h.namesAlike h.expander hscope) type).symm

/-- A callback has the same payload in a file and in its copy. -/
theorem payloadOf (h : Renumbers ρ w w') {callback callback' : Callback}
    (hcallback : SameCallback w ρ callback callback') :
    w'.payloadOf callback' = w.payloadOf callback := by
  rw [Workspace.payloadOf, Workspace.payloadOf, hcallback.parameter]
  congr 1
  funext type
  exact h.schemaIn hcallback.scope type

end Workspace.Renumbers

end ElementCatalog
