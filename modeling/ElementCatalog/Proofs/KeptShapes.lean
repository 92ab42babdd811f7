import ElementCatalog.Proofs.KeptSchemas

/-!
# Kept properties of shapes

Toward: every member of a shape has an allowed name, and it and its callback are read in scopes
whose type parameters stand for schemas with a property that is kept.  The route:

* callbacks and members of a type are read in the scope of the type, or in one that binds the
  parameters of a declaration;
* by induction on the depth, this holds for what declarations are expanded to.
-/

namespace ElementCatalog

open Source (AllowedKeys TypeExpr TypeMember)
open ElementCatalog.Types

/-- A member has an allowed name, and it and its callback are read in scopes with a property. -/
structure ShapeMember.Keeps (allowed : String → Prop) (P : Schema → Prop) (m : ShapeMember) :
    Prop where
  name : allowed m.name
  scope : m.scope.All P
  callback : ∀ c, m.callback = some c → c.scope.All P

/-- All members of a shape have allowed names and are read in such scopes. -/
def Types.ShapeKeeps (allowed : String → Prop) (P : Schema → Prop) (shape : List ShapeMember) :
    Prop :=
  ∀ m ∈ shape, m.Keeps allowed P

/-- Declared types are looked into within scopes with a property. -/
structure Expander.Keeps (w : Workspace) (allowed : String → Prop) (P : Schema → Prop)
    (e : Expander) : Prop where
  schema : w.ExpandsTo P e.schema
  members : ∀ d, w.Declares .type d → ∀ args, (∀ arg ∈ args, P arg) →
    ShapeKeeps allowed P (e.members d args)
  callback : ∀ d, w.Declares .type d → ∀ args, AllowedKeys allowed (Source.writtenKeysOfAll args) →
    ∀ scope, scope.All P → ∀ c, e.callback d args scope = some c → c.scope.All P

variable {allowed : String → Prop} {P : Schema → Prop}

/-! ## Merging shapes -/

namespace Types

/-- A member that is there after a merge was in one of the shapes. -/
theorem mem_or_mem_of_mem_mergeMembers {members : List ShapeMember} {m : ShapeMember} :
    ∀ {shape : List ShapeMember}, m ∈ mergeMembers shape members → m ∈ shape ∨ m ∈ members := by
  induction members with
  | nil => exact fun h => Or.inl h
  | cons first rest ih =>
      intro shape h
      rcases ih h with hshape | hrest
      · rcases List.mem_append.mp hshape with hshape | hfirst
        · exact Or.inl (List.mem_filter.mp hshape).1
        · exact Or.inr (List.mem_cons.mpr (Or.inl (List.mem_singleton.mp hfirst)))
      · exact Or.inr (List.mem_cons_of_mem _ hrest)

namespace ShapeKeeps

/-- A shape without members. -/
theorem nil : ShapeKeeps allowed P [] :=
  fun _ h => absurd h List.not_mem_nil

/-- Two shapes, one over the other. -/
theorem merge {shape members : List ShapeMember} (h : ShapeKeeps allowed P shape)
    (hmembers : ShapeKeeps allowed P members) :
    ShapeKeeps allowed P (mergeMembers shape members) := by
  intro m hm
  rcases mem_or_mem_of_mem_mergeMembers hm with hm | hm
  · exact h m hm
  · exact hmembers m hm

/-- Several shapes, one over the other. -/
theorem foldl_merge {shape : List ShapeMember} (h : ShapeKeeps allowed P shape)
    {shapes : List (List ShapeMember)}
    (hshapes : ∀ members ∈ shapes, ShapeKeeps allowed P members) :
    ShapeKeeps allowed P (shapes.foldl mergeMembers shape) :=
  List.foldlRecOn (motive := ShapeKeeps allowed P) shapes _ h fun _ hmerged members hmembers =>
    hmerged.merge (hshapes members hmembers)

/-- A change to a shape reads no member anew. -/
theorem apply {shape : List ShapeMember} (h : ShapeKeeps allowed P shape) (keys : List String)
    (change : ShapeChange) : ShapeKeeps allowed P (change.apply keys shape) := by
  cases change with
  | setOptional optional =>
      intro m hm
      obtain ⟨old, hold, heq⟩ := List.mem_map.mp hm
      rw [← heq]
      exact ⟨(h old hold).name, (h old hold).scope, (h old hold).callback⟩
  | keep => exact h
  | pick => exact fun m hm => h m (List.mem_filter.mp hm).1
  | _ => exact fun m hm => h m (List.mem_filter.mp hm).1

end ShapeKeeps

end Types

namespace Kept

section Shapes

variable {w : Workspace} {e : Expander} {scope : Scope}

/-! ## Callbacks -/

/-- The callback of a reference is read in such a scope. -/
theorem referencedCallback? (he : e.Keeps w allowed P) (hscope : scope.All P)
    (name : String) {args : List TypeExpr}
    (hargs : AllowedKeys allowed (Source.writtenKeysOfAll args)) (c : Callback) (hc : referencedCallback? w e scope name args = some c) : c.scope.All P := by
  rw [Types.referencedCallback?] at hc
  split at hc
  · cases hc
    exact hscope
  · split at hc
    · cases hc
    · split at hc
      · next d hd =>
          split at hc
          · exact he.callback d (Workspace.resolve?_declares hd) args hargs scope hscope c hc
          · cases hc
      · split at hc
        · cases hc
          exact hscope
        · cases hc

mutual

/-- The callback of a type is read in such a scope. -/
theorem callbackOf? (he : e.Keeps w allowed P) (hscope : scope.All P) : ∀ type : TypeExpr,
    AllowedKeys allowed type.writtenKeys → ∀ c, callbackOf? w e scope type = some c →
      c.scope.All P
  | .function parameter, _, c, hc => by
      rw [Types.callbackOf?] at hc
      cases hc
      exact hscope
  | .paren type, hkeys, c, hc => by
      rw [TypeExpr.writtenKeys] at hkeys
      rw [Types.callbackOf?] at hc
      exact callbackOf? he hscope type hkeys c hc
  | .union members, hkeys, c, hc => by
      rw [TypeExpr.writtenKeys] at hkeys
      rw [Types.callbackOf?] at hc
      exact soleCallback? he hscope members hkeys c hc
  | .reference (.ident name) args, hkeys, c, hc => by
      rw [TypeExpr.writtenKeys] at hkeys
      rw [Types.callbackOf?] at hc
      exact referencedCallback? he hscope name hkeys c hc
  | .reference (.qualified _ _) _, _, _, hc | .keyword _, _, _, hc | .literal _, _, _, hc
  | .object _, _, _, hc | .array _, _, _, hc | .tuple _, _, _, hc | .optional _, _, _, hc
  | .rest _, _, _, hc | .intersection _, _, _, hc | .readonly _, _, _, hc | .keyof _, _, _, hc
  | .indexed _ _, _, _, hc | .mapped, _, _, hc | .predicate, _, _, hc | .other, _, _, hc =>
      nomatch hc

/-- The callback of the only type with a value is read in such a scope. -/
theorem soleCallback? (he : e.Keeps w allowed P) (hscope : scope.All P) : ∀ types : List TypeExpr,
    AllowedKeys allowed (Source.writtenKeysOfAll types) →
      ∀ c, soleCallback? w e scope types = some c → c.scope.All P
  | [], _, _, hc => nomatch hc
  | type :: rest, hkeys, c, hc => by
      rw [Source.writtenKeysOfAll] at hkeys
      rw [Types.soleCallback?] at hc
      split at hc
      · exact soleCallback? he hscope rest hkeys.of_append.2 c hc
      · split at hc
        · exact callbackOf? he hscope type hkeys.of_append.1 c hc
        · cases hc

end

/-- The callback of an alias is read in such a scope. -/
theorem aliasCallback? (h : Kept allowed P) (he : e.Keeps w allowed P) {d : Declaration}
    (hd : AllowedKeys allowed d.writtenKeys) {args : List TypeExpr}
    (hargs : AllowedKeys allowed (Source.writtenKeysOfAll args)) (hscope : scope.All P)
    (c : Callback) (hc : aliasCallback? w e d args scope = some c) : c.scope.All P := by
  rw [Types.aliasCallback?] at hc
  split at hc
  · next decl hnode =>
      obtain ⟨hparams, htype⟩ := allowed_of_alias hd hnode
      refine callbackOf? he ?_ _ htype c hc
      exact h.bindParams he.schema _ hparams (h.schemasOf he.schema hscope args hargs)
        (.ofFile d.file)
  · cases hc

/-! ## Members -/

/-- The members that an object type declares are read in its scope. -/
theorem ownMembers (he : e.Keeps w allowed P) (hscope : scope.All P) :
    ∀ {members : List TypeMember}, AllowedKeys allowed (Source.writtenKeysOfMembers members) →
      ShapeKeeps allowed P (ownMembers w e scope members) := by
  intro members
  induction members with
  | nil => exact fun _ => .nil
  | cons member rest ih =>
      intro hkeys m hm
      rw [Source.writtenKeysOfMembers] at hkeys
      obtain ⟨declaring, hdeclaring, hown⟩ := List.mem_filterMap.mp hm
      rcases List.mem_cons.mp hdeclaring with heq | hrest
      swap
      · exact ih hkeys.of_append.2 m (List.mem_filterMap.mpr ⟨declaring, hrest, hown⟩)
      rw [heq] at hown
      have hkeys := hkeys.of_append.1
      cases member with
      | property start key optional type =>
          rw [TypeMember.writtenKeys] at hkeys
          obtain ⟨name, hname, heq⟩ := Option.map_eq_some_iff.mp hown
          rw [← heq]
          refine ⟨hkeys _ List.mem_cons_self name hname, hscope, fun c hc => ?_⟩
          obtain ⟨written, hwritten, hc⟩ := Option.bind_eq_some_iff.mp hc
          rw [hwritten, Source.writtenKeysOfDeclared] at hkeys
          exact callbackOf? he hscope written (fun k hk => hkeys k (List.mem_cons_of_mem _ hk)) c hc
      | method start key optional parameter =>
          rw [TypeMember.writtenKeys] at hkeys
          obtain ⟨name, hname, heq⟩ := Option.map_eq_some_iff.mp hown
          rw [← heq]
          refine ⟨hkeys _ List.mem_cons_self name hname, hscope, fun c hc => ?_⟩
          cases hc
          exact hscope
      | getter start key type =>
          rw [TypeMember.writtenKeys] at hkeys
          obtain ⟨name, hname, heq⟩ := Option.map_eq_some_iff.mp hown
          rw [← heq]
          exact ⟨hkeys _ List.mem_cons_self name hname, hscope, fun c hc => nomatch hc⟩
      | other => cases hown

/-- The members of what a name refers to are read in such scopes. -/
theorem declaredMembers (h : Kept allowed P) (he : e.Keeps w allowed P) (hscope : scope.All P)
    {args : List TypeExpr} (hargs : AllowedKeys allowed (Source.writtenKeysOfAll args))
    {declaration : Option Declaration}
    (hdeclared : ∀ d, declaration = some d → w.Declares .type d) :
    ShapeKeeps allowed P (declaredMembers w e scope args declaration) := by
  cases declaration with
  | none => exact .nil
  | some d => exact he.members d (hdeclared d rfl) _ (h.schemasOf he.schema hscope args hargs)

mutual

/-- The members of a type are read in such scopes. -/
theorem membersOf (h : Kept allowed P) (he : e.Keeps w allowed P) (hscope : scope.All P) :
    ∀ type : TypeExpr, AllowedKeys allowed type.writtenKeys →
      ShapeKeeps allowed P (membersOf w e scope type)
  | .object members, hkeys => by
      rw [TypeExpr.writtenKeys] at hkeys
      rw [Types.membersOf]
      exact ownMembers he hscope hkeys
  | .paren type, hkeys => by
      rw [TypeExpr.writtenKeys] at hkeys
      rw [Types.membersOf]
      exact membersOf h he hscope type hkeys
  | .readonly type, hkeys => by
      rw [TypeExpr.writtenKeys] at hkeys
      rw [Types.membersOf]
      exact membersOf h he hscope type hkeys
  | .intersection members, hkeys => by
      rw [TypeExpr.writtenKeys] at hkeys
      rw [Types.membersOf]
      exact mergedMembersOf h he hscope members hkeys .nil
  | .reference (.ident name) args, hkeys => by
      rw [TypeExpr.writtenKeys] at hkeys
      rw [Types.membersOf]
      exact namedMembers h he hscope name args hkeys
  | .reference (.qualified (.ident outer) name) args, hkeys => by
      rw [TypeExpr.writtenKeys] at hkeys
      rw [Types.membersOf]
      exact declaredMembers h he hscope hkeys fun d hd => Workspace.qualifiedType?_declares hd
  | .reference (.qualified (.qualified _ _) _) _, _ | .keyword _, _ | .literal _, _ | .array _, _
  | .tuple _, _ | .optional _, _ | .rest _, _ | .union _, _ | .keyof _, _ | .indexed _ _, _
  | .mapped, _ | .predicate, _ | .function _, _ | .other, _ => .nil

/-- The members of several types are read in such scopes. -/
theorem mergedMembersOf (h : Kept allowed P) (he : e.Keeps w allowed P) (hscope : scope.All P) :
    ∀ types : List TypeExpr, AllowedKeys allowed (Source.writtenKeysOfAll types) →
      ∀ {shape : List ShapeMember}, ShapeKeeps allowed P shape →
        ShapeKeeps allowed P (mergedMembersOf w e scope shape types)
  | [], _, _, hshape => hshape
  | type :: rest, hkeys, _, hshape => by
      rw [Source.writtenKeysOfAll] at hkeys
      rw [Types.mergedMembersOf]
      exact mergedMembersOf h he hscope rest hkeys.of_append.2
        (hshape.merge (membersOf h he hscope type hkeys.of_append.1))

/-- The members of the type that a name stands for are read in such scopes. -/
theorem namedMembers (h : Kept allowed P) (he : e.Keeps w allowed P) (hscope : scope.All P)
    (name : String) : ∀ args : List TypeExpr, AllowedKeys allowed (Source.writtenKeysOfAll args) →
      ShapeKeeps allowed P (namedMembers w e scope name args)
  | [], hkeys => by
      rw [Types.namedMembers]
      cases shapeChange? name with
      | some change => exact .nil
      | none =>
          exact declaredMembers h he hscope hkeys fun d hd => Workspace.resolve?_declares hd
  | first :: rest, hkeys => by
      rw [Types.namedMembers]
      cases shapeChange? name with
      | some change =>
          rw [Source.writtenKeysOfAll] at hkeys
          exact (membersOf h he hscope first hkeys.of_append.1).apply _ change
      | none =>
          exact declaredMembers h he hscope hkeys fun d hd => Workspace.resolve?_declares hd

end

/-- The members of an interface are read in such scopes. -/
theorem interfaceMembers (h : Kept allowed P) (he : e.Keeps w allowed P) (hscope : scope.All P)
    {decl : Source.InterfaceDecl}
    (hparents : ∀ parent ∈ decl.parents,
      AllowedKeys allowed (Source.writtenKeysOfAll (parent.args.map (·.type))))
    (hmembers : AllowedKeys allowed (Source.writtenKeysOfMembers decl.members)) :
    ShapeKeeps allowed P (interfaceMembers w e scope decl) := by
  refine (ShapeKeeps.nil.foldl_merge fun members hinherited => ?_).merge
    (ownMembers he hscope hmembers)
  obtain ⟨parent, hparent, heq⟩ := List.mem_map.mp hinherited
  rw [← heq]
  split
  · exact namedMembers h he hscope _ _ (hparents parent hparent)
  · exact .nil

/-- The members of the instances of a class are read in its scope. -/
theorem classMembers (he : e.Keeps w allowed P) (hscope : scope.All P) {value : Source.ClassDef}
    (hkeys : AllowedKeys allowed (value.members.flatMap Source.ClassMember.writtenKeys)) :
    ShapeKeeps allowed P (classMembers w e scope value) := by
  intro m hm
  obtain ⟨field, hfield, heq⟩ := List.mem_map.mp hm
  rw [← heq]
  obtain ⟨hname, htype⟩ := allowed_of_mem_classFields hkeys hfield
  refine ⟨hname, hscope, fun c hc => ?_⟩
  obtain ⟨written, hwritten, hc⟩ := Option.bind_eq_some_iff.mp hc
  rw [hwritten, Source.writtenKeysOfDeclared] at htype
  exact callbackOf? he hscope written htype c hc

/-- The members of a declaration are read in such scopes. -/
theorem declarationMembers (h : Kept allowed P) (he : e.Keeps w allowed P) {d : Declaration}
    (hkeys : AllowedKeys allowed d.writtenKeys) {args : List Schema} (hargs : ∀ arg ∈ args, P arg) :
    ShapeKeeps allowed P (declarationMembers w e d args) := by
  have hbound {params : List Source.TypeParam}
      (hparams : AllowedKeys allowed (Source.writtenKeysOfParams params)) :
      (ElementCatalog.bindParams w e.schema params args (.ofFile d.file)).All P :=
    h.bindParams he.schema params hparams hargs (.ofFile d.file)
  rw [Types.declarationMembers]
  cases hnode : d.node with
  | interfaceNode decl =>
      obtain ⟨hparams, hparents, hmembers⟩ := allowed_of_interface hkeys hnode
      exact h.interfaceMembers he (hbound hparams) hparents hmembers
  | aliasNode decl =>
      obtain ⟨hparams, htype⟩ := allowed_of_alias hkeys hnode
      exact h.membersOf he (hbound hparams) decl.type.type htype
  | classNode value =>
      obtain ⟨hparams, hmembers⟩ := allowed_of_class hkeys hnode
      exact classMembers he (hbound hparams) hmembers
  | enumNode | functionNode | variableNode => exact .nil

/-- To every depth, and whatever is open, declarations with allowed keys are looked into within such
    scopes. -/
theorem expanderWithin_keeps (h : Kept allowed P)
    (hkeys : ∀ d, w.Declares .type d → AllowedKeys allowed d.writtenKeys) (depth : Nat) :
    ∀ opened : List DeclarationKey, (Types.expanderWithin w depth opened).Keeps w allowed P := by
  induction depth with
  | zero =>
      exact fun opened => ⟨h.expanderWithin hkeys 0 opened, fun _ _ _ _ => ShapeKeeps.nil,
        fun _ _ _ _ _ _ _ hc => nomatch hc⟩
  | succ depth ih =>
      intro opened
      refine ⟨h.expanderWithin hkeys _ opened, fun d hd args hargs => ?_,
        fun d hd args hargs scope hscope c hc => ?_⟩
      · show ShapeKeeps allowed P (if opened.contains d.key then []
          else Types.declarationMembers w (Types.expanderWithin w depth (d.key :: opened)) d args)
        split
        · exact .nil
        · exact h.declarationMembers (ih _) (hkeys d hd) hargs
      · change (if opened.contains d.key then none
          else Types.aliasCallback? w (Types.expanderWithin w depth (d.key :: opened)) d args
            scope) = some c at hc
        split at hc
        · cases hc
        · exact h.aliasCallback? (ih _) (hkeys d hd) hargs hscope c hc

/-- **Kept properties hold of all shapes**: in a workspace whose declarations have allowed keys, and
    in a scope whose type parameters stand for schemas with the property, the members of every type
    with allowed keys have allowed names and are read in such scopes. -/
theorem membersIn (h : Kept allowed P)
    (hkeys : ∀ d, w.Declares .type d → AllowedKeys allowed d.writtenKeys) (hscope : scope.All P)
    {type : TypeExpr} (htype : AllowedKeys allowed type.writtenKeys) :
    ShapeKeeps allowed P (w.membersIn scope type) :=
  h.membersOf (h.expanderWithin_keeps hkeys _ _) hscope type htype

/-- The same for the type that a name with arguments stands for. -/
theorem namedMembersIn (h : Kept allowed P)
    (hkeys : ∀ d, w.Declares .type d → AllowedKeys allowed d.writtenKeys) (hscope : scope.All P)
    (name : String) {args : List TypeExpr}
    (hargs : AllowedKeys allowed (Source.writtenKeysOfAll args)) :
    ShapeKeeps allowed P (w.namedMembersIn scope name args) :=
  h.namedMembers (h.expanderWithin_keeps hkeys _ _) hscope name args hargs

end Shapes

end Kept

end ElementCatalog
