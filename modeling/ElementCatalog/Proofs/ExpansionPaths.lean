import ElementCatalog.Proofs.OpenDeclarations
import ElementCatalog.Types.References

/-!
# Expansion depends on the path only through references

Toward: a type has the same schema inside two expansions if the same of the declarations that it
leads to are open in both; so a type from which no open declaration can be reached is read as if
none was open.  The route:

* expanders that agree on the declarations that a type refers to read the type alike, and likewise
  the parts of a declaration;
* expanders on two paths agree on a declaration by induction on the number of declarations that are
  not open, since looking into it opens it on both paths.
-/

namespace ElementCatalog

open Source (TypeExpr TypeMember TypeParam Heritage)
open ElementCatalog.Types

/-- The scope binds exactly these type parameters. -/
def Scope.Binds (scope : Scope) (params : List String) : Prop :=
  ∀ name, (Dictionary.find? scope.bindings name).isSome ↔ name ∈ params

/-- A file binds no type parameters. -/
theorem Scope.Binds.ofFile (file : SourceFile) : (Scope.ofFile file).Binds [] := by
  intro name
  simp [Scope.ofFile, Dictionary.find?]

/-- Binding one more type parameter. -/
theorem Scope.Binds.bind {scope : Scope} {params : List String} (h : scope.Binds params)
    (name : String) (schema : Schema) : (scope.bind name schema).Binds (params ++ [name]) := by
  intro other
  rw [Scope.bind, Dictionary.find?_set, List.mem_append, List.mem_singleton, ← h other]
  by_cases hname : other = name
  · simp [hname]
  · simp [hname]

namespace Types

/-- Two expanders agree on declarations. -/
def AgreeOn (expand expand' : Expand) (ds : List Declaration) : Prop :=
  ∀ d ∈ ds, ∀ args, expand d args = expand' d args

section Congruence

variable {w : Workspace} {expand expand' : Expand} {scope : Scope} {params : List String}

/-- Expanders that agree on two lists agree on each. -/
theorem AgreeOn.of_append {ds ds' : List Declaration} (h : AgreeOn expand expand' (ds ++ ds')) :
    AgreeOn expand expand' ds ∧ AgreeOn expand expand' ds' :=
  ⟨fun d hd => h d (List.mem_append_left _ hd), fun d hd => h d (List.mem_append_right _ hd)⟩

/-- Expanders that agree on what a list refers to agree on what each item refers to. -/
theorem AgreeOn.of_flatMap {α : Type} {items : List α} {refer : α → List Declaration}
    (h : AgreeOn expand expand' (items.flatMap refer)) {item : α} (hitem : item ∈ items) :
    AgreeOn expand expand' (refer item) :=
  fun d hd => h d (List.mem_flatMap.mpr ⟨item, hitem, hd⟩)

mutual

/-- Expanders that agree on what a type refers to read the type alike. -/
theorem schemaOf_congr (hbinds : scope.Binds params) : ∀ type : TypeExpr,
    AgreeOn expand expand' (referencesOf w scope.file params type) →
      schemaOf w expand scope type = schemaOf w expand' scope type
  | .reference (.ident name) args, h => by
      rw [schemaOf, schemaOf]
      cases hbound : Dictionary.find? scope.bindings name with
      | some bound => rfl
      | none =>
          -- A name that is bound to nothing is no type parameter.
          have hparam : params.contains name = false := by
            rw [Bool.eq_false_iff, ne_eq, List.contains_iff_mem, ← hbinds name, hbound]
            exact Bool.false_ne_true
          rw [referencesOf, if_neg (by rw [hparam]; exact Bool.false_ne_true)] at h
          obtain ⟨hname, hargs⟩ := h.of_append
          cases wellKnown? name with
          | some rule =>
              dsimp only
              rw [firstSchema_congr hbinds args hargs]
          | none =>
              cases hd : w.type? scope.file name with
              | none => rfl
              | some d =>
                  dsimp only
                  rw [schemasOf_congr hbinds args hargs]
                  exact hname d (by rw [hd]; exact List.mem_singleton.mpr rfl) _
  | .reference (.qualified (.ident outer) name) args, h => by
      rw [schemaOf, schemaOf]
      rw [referencesOf] at h
      obtain ⟨hname, hargs⟩ := h.of_append
      cases enumMembers? (w.type? scope.file outer) with
      | some members => rfl
      | none =>
          cases hd : w.qualifiedType? scope.file outer name with
          | none => rfl
          | some d =>
              dsimp only
              rw [schemasOf_congr hbinds args hargs]
              exact hname d (by rw [hd]; exact List.mem_singleton.mpr rfl) _
  | .reference (.qualified (.qualified _ _) _) _, _ => by rw [schemaOf, schemaOf]
  | .object members, h => by
      rw [referencesOf] at h
      rw [schemaOf, schemaOf, entriesOf_congr hbinds members h]
  | .array items, h => by
      rw [referencesOf] at h
      rw [schemaOf, schemaOf, schemaOf_congr hbinds items h]
  | .tuple elements, h => by
      rw [referencesOf] at h
      rw [schemaOf, schemaOf, schemasOf_congr hbinds elements h]
  | .optional type, h => by
      rw [referencesOf] at h
      rw [schemaOf, schemaOf, schemaOf_congr hbinds type h]
  | .rest type, h => by
      rw [referencesOf] at h
      rw [schemaOf, schemaOf, schemaOf_congr hbinds type h]
  | .union members, h => by
      rw [referencesOf] at h
      rw [schemaOf, schemaOf, definedSchemasOf_congr hbinds members h]
  | .intersection members, h => by
      rw [referencesOf] at h
      rw [schemaOf, schemaOf, schemasOf_congr hbinds members h]
  | .paren type, h => by
      rw [referencesOf] at h
      rw [schemaOf, schemaOf, schemaOf_congr hbinds type h]
  | .readonly type, h => by
      rw [referencesOf] at h
      rw [schemaOf, schemaOf, schemaOf_congr hbinds type h]
  | .keyof type, h => by
      rw [referencesOf] at h
      rw [schemaOf, schemaOf, schemaOf_congr hbinds type h]
  | .indexed object index, h => by
      rw [referencesOf] at h
      rw [schemaOf, schemaOf, schemaOf_congr hbinds object h]
  | .keyword _, _ | .literal _, _ | .mapped, _ | .predicate, _ | .function _, _ | .other, _ => by
      rw [schemaOf, schemaOf]

/-- Several types are read alike. -/
theorem schemasOf_congr (hbinds : scope.Binds params) : ∀ types : List TypeExpr,
    AgreeOn expand expand' (referencesOfAll w scope.file params types) →
      schemasOf w expand scope types = schemasOf w expand' scope types
  | [], _ => rfl
  | type :: rest, h => by
      rw [referencesOfAll] at h
      obtain ⟨hfirst, hrest⟩ := h.of_append
      rw [schemasOf, schemasOf, schemaOf_congr hbinds type hfirst,
        schemasOf_congr hbinds rest hrest]

/-- The types that stand for a value are read alike. -/
theorem definedSchemasOf_congr (hbinds : scope.Binds params) : ∀ types : List TypeExpr,
    AgreeOn expand expand' (referencesOfAll w scope.file params types) →
      definedSchemasOf w expand scope types = definedSchemasOf w expand' scope types
  | [], _ => rfl
  | type :: rest, h => by
      rw [referencesOfAll] at h
      obtain ⟨hfirst, hrest⟩ := h.of_append
      rw [definedSchemasOf, definedSchemasOf, schemaOf_congr hbinds type hfirst,
        definedSchemasOf_congr hbinds rest hrest]

/-- The first of several types is read alike. -/
theorem firstSchema_congr (hbinds : scope.Binds params) : ∀ types : List TypeExpr,
    AgreeOn expand expand' (referencesOfAll w scope.file params types) →
      firstSchema w expand scope types = firstSchema w expand' scope types
  | [], _ => rfl
  | type :: _, h => by
      rw [referencesOfAll] at h
      rw [firstSchema, firstSchema, schemaOf_congr hbinds type h.of_append.1]

/-- A declared type is read alike. -/
theorem declaredSchema_congr (hbinds : scope.Binds params) : ∀ type : Option TypeExpr,
    AgreeOn expand expand' (referencesOfDeclared w scope.file params type) →
      declaredSchema w expand scope type = declaredSchema w expand' scope type
  | none, _ => rfl
  | some type, h => by
      rw [referencesOfDeclared] at h
      rw [declaredSchema, declaredSchema, schemaOf_congr hbinds type h]

/-- The property that a member of an object type declares is read alike. -/
theorem entryOf_congr (hbinds : scope.Binds params) : ∀ member : TypeMember,
    AgreeOn expand expand' (referencesOfMember w scope.file params member) →
      entryOf w expand scope member = entryOf w expand' scope member
  | .property _ key optional type, h => by
      rw [referencesOfMember] at h
      rw [entryOf, entryOf, declaredSchema_congr hbinds type h]
  | .getter _ key type, h => by
      rw [referencesOfMember] at h
      rw [entryOf, entryOf, declaredSchema_congr hbinds type h]
  | .method _ _ _ _, _ => rfl
  | .other, _ => rfl

/-- The properties that members of an object type declare are read alike. -/
theorem entriesOf_congr (hbinds : scope.Binds params) : ∀ members : List TypeMember,
    AgreeOn expand expand' (referencesOfMembers w scope.file params members) →
      entriesOf w expand scope members = entriesOf w expand' scope members
  | [], _ => rfl
  | member :: rest, h => by
      rw [referencesOfMembers] at h
      obtain ⟨hfirst, hrest⟩ := h.of_append
      rw [entriesOf, entriesOf, entryOf_congr hbinds member hfirst,
        entriesOf_congr hbinds rest hrest]

end

/-- Type parameters are bound in the file of their declaration. -/
theorem file_bindParams (w : Workspace) (expand : Expand) (params : List TypeParam) :
    ∀ (args : List Schema) (scope : Scope),
      (bindParams w expand params args scope).file = scope.file := by
  induction params with
  | nil => exact fun _ _ => rfl
  | cons param rest ih => exact fun args scope => ih args.tail _

/-- All type parameters are bound. -/
theorem bindParams_binds (w : Workspace) (expand : Expand) (params : List TypeParam) :
    ∀ (args : List Schema) {scope : Scope} {before : List String}, scope.Binds before →
      (bindParams w expand params args scope).Binds (before ++ params.map (·.name)) := by
  induction params with
  | nil =>
      intro args scope before h
      rw [List.map_nil, List.append_nil]
      exact h
  | cons param rest ih =>
      intro args scope before h
      rw [List.map_cons, List.append_cons]
      exact ih args.tail (h.bind param.name _)

/-- The first type parameter is bound to its argument, or to its default. -/
theorem bindParams_cons (w : Workspace) (expand : Expand) (param : TypeParam)
    (rest : List TypeParam) (args : List Schema) (scope : Scope) :
    bindParams w expand (param :: rest) args scope =
      bindParams w expand rest args.tail (scope.bind param.name
        (args.head?.getD (declaredSchema w expand scope param.default))) := by
  cases args <;> rfl

/-- Type parameters are bound one after another, each list to its part of the arguments. -/
theorem bindParams_append (w : Workspace) (expand : Expand) (before after : List TypeParam) :
    ∀ (args : List Schema) (scope : Scope), bindParams w expand (before ++ after) args scope =
      bindParams w expand after (args.drop before.length)
        (bindParams w expand before args scope) := by
  induction before with
  | nil => exact fun _ _ => rfl
  | cons param rest ih =>
      intro args scope
      rw [List.cons_append, bindParams_cons, bindParams_cons, ih, List.drop_tail, List.length_cons]

/-- A name that is no type parameter means what it meant. -/
theorem find?_bindParams_of_notMem (w : Workspace) (expand : Expand) {params : List TypeParam}
    {name : String} (h : name ∉ params.map (·.name)) : ∀ (args : List Schema) (scope : Scope),
      Dictionary.find? (bindParams w expand params args scope).bindings name =
        Dictionary.find? scope.bindings name := by
  induction params with
  | nil => exact fun _ _ => rfl
  | cons param rest ih =>
      intro args scope
      rw [List.map_cons, List.mem_cons, not_or] at h
      obtain ⟨hparam, hrest⟩ := h
      rw [bindParams_cons, ih hrest, Scope.bind, Dictionary.find?_set, if_neg hparam]

/-- The last type parameter of a name is bound to its argument, or to its default, in which the
    parameters before it may occur. -/
theorem find?_bindParams (w : Workspace) (expand : Expand) {before after : List TypeParam}
    {p : TypeParam} (h : p.name ∉ after.map (·.name)) (args : List Schema) (scope : Scope) :
    Dictionary.find? (bindParams w expand (before ++ p :: after) args scope).bindings p.name =
      some ((args[before.length]?).getD
        (declaredSchema w expand (bindParams w expand before args scope) p.default)) := by
  rw [bindParams_append, bindParams_cons, find?_bindParams_of_notMem w expand h, Scope.bind,
    Dictionary.find?_set_self, List.head?_drop]

/-- The type parameters of a declaration are bound alike. -/
theorem bindParams_congr (paramList : List TypeParam) : ∀ (args : List Schema) {scope : Scope}
    {before : List String}, scope.Binds before →
      AgreeOn expand expand' (referencesOfDefaults w scope.file before paramList) →
        bindParams w expand paramList args scope = bindParams w expand' paramList args scope := by
  induction paramList with
  | nil => exact fun _ _ _ _ _ => rfl
  | cons param rest ih =>
      intro args scope before hbinds h
      rw [referencesOfDefaults] at h
      obtain ⟨hdefault, hrest⟩ := h.of_append
      cases args with
      | cons arg others => exact ih others (hbinds.bind param.name arg) hrest
      | nil =>
          rw [bindParams, bindParams, declaredSchema_congr hbinds param.default hdefault]
          exact ih [] (hbinds.bind param.name _) hrest

/-- The schema of an interface is read alike. -/
theorem interfaceSchema_congr {decl : Source.InterfaceDecl} (hbinds : scope.Binds params)
    (h : AgreeOn expand expand' (decl.parents.flatMap (referencesOfParent w scope.file params) ++
      referencesOfMembers w scope.file params decl.members)) :
    interfaceSchema w expand scope decl = interfaceSchema w expand' scope decl := by
  obtain ⟨hparents, hmembers⟩ := h.of_append
  have hinherited : (decl.parents.filterMap fun parent => parent.name?.bind fun name =>
      object? (schemaOf w expand scope (.reference name (parent.args.map (·.type))))) =
        decl.parents.filterMap fun parent => parent.name?.bind fun name =>
          object? (schemaOf w expand' scope (.reference name (parent.args.map (·.type)))) := by
    refine List.filterMap_congr fun parent hparent => ?_
    have hparent := hparents.of_flatMap hparent
    rw [referencesOfParent] at hparent
    cases hname : parent.name? with
    | none => rfl
    | some name =>
        rw [hname] at hparent
        rw [Option.bind_some, Option.bind_some, schemaOf_congr hbinds _ hparent]
  rw [interfaceSchema, interfaceSchema, hinherited, entriesOf_congr hbinds decl.members hmembers]

/-- The schema of the instances of a class is read alike. -/
theorem classSchema_congr {value : Source.ClassDef} (hbinds : scope.Binds params)
    (h : AgreeOn expand expand' ((classFields value).flatMap fun field =>
      referencesOfDeclared w scope.file params field.type)) :
    classSchema w expand scope value = classSchema w expand' scope value := by
  rw [classSchema, classSchema]
  congr 2
  refine List.map_congr_left fun field hfield => ?_
  rw [declaredSchema_congr hbinds field.type (h.of_flatMap hfield)]

/-- Expanders that agree on what a declaration refers to read its schema alike. -/
theorem declarationSchema_congr {d : Declaration} (h : AgreeOn expand expand' (d.references w))
    (args : List Schema) :
    declarationSchema w expand d args = declarationSchema w expand' d args := by
  obtain ⟨hdefaults, hparts⟩ := h.of_append
  have hscope := bindParams_congr d.params args (Scope.Binds.ofFile d.file) hdefaults
  have hbinds : (bindParams w expand' d.params args (Scope.ofFile d.file)).Binds d.paramNames :=
    bindParams_binds w expand' d.params args (Scope.Binds.ofFile d.file)
  have hfile : (bindParams w expand' d.params args (Scope.ofFile d.file)).file = d.file :=
    file_bindParams w expand' d.params args _
  rw [declarationSchema, declarationSchema]
  rw [Declaration.partReferences] at hparts
  rw [Declaration.params] at hscope hbinds hfile
  cases hnode : d.node with
  | interfaceNode decl =>
      simp only [hnode] at hparts hscope hbinds hfile ⊢
      rw [hscope]
      exact interfaceSchema_congr hbinds (by rw [hfile]; exact hparts)
  | aliasNode decl =>
      simp only [hnode] at hparts hscope hbinds hfile ⊢
      rw [hscope]
      exact schemaOf_congr hbinds _ (by rw [hfile]; exact hparts)
  | classNode value =>
      simp only [hnode] at hparts hscope hbinds hfile ⊢
      rw [hscope]
      exact classSchema_congr hbinds (by rw [hfile]; exact hparts)
  | enumNode | functionNode | variableNode => rfl

end Congruence

end Types

/-! ## References are declared -/

namespace Workspace

variable {w : Workspace} {file : SourceFile} {params : List String}

mutual

/-- What a type refers to is declared. -/
theorem declares_of_mem_referencesOf : ∀ type : TypeExpr,
    ∀ d ∈ referencesOf w file params type, w.Declares .type d
  | .reference (.ident name) args => by
      rw [referencesOf]
      split
      · exact fun _ hd => absurd hd List.not_mem_nil
      · refine List.forall_mem_append.mpr ⟨fun d hd => ?_, declares_of_mem_referencesOfAll args⟩
        exact resolve?_declares (Option.mem_toList.mp hd)
  | .reference (.qualified (.ident outer) name) args => by
      rw [referencesOf]
      refine List.forall_mem_append.mpr ⟨fun d hd => ?_, declares_of_mem_referencesOfAll args⟩
      exact qualifiedType?_declares (Option.mem_toList.mp hd)
  | .object members => by
      rw [referencesOf]
      exact declares_of_mem_referencesOfMembers members
  | .tuple types | .union types | .intersection types => by
      rw [referencesOf]
      exact declares_of_mem_referencesOfAll types
  | .array type | .optional type | .rest type | .paren type | .readonly type | .keyof type
  | .indexed type _ => by
      rw [referencesOf]
      exact declares_of_mem_referencesOf type
  | .reference (.qualified (.qualified _ _) _) _ | .keyword _ | .literal _ | .mapped | .predicate
  | .function _ | .other => by
      rw [referencesOf]
      exact fun _ hd => absurd hd List.not_mem_nil

/-- What several types refer to is declared. -/
theorem declares_of_mem_referencesOfAll : ∀ types : List TypeExpr,
    ∀ d ∈ referencesOfAll w file params types, w.Declares .type d
  | [] => fun _ hd => absurd hd List.not_mem_nil
  | type :: rest => by
      rw [referencesOfAll]
      exact List.forall_mem_append.mpr
        ⟨declares_of_mem_referencesOf type, declares_of_mem_referencesOfAll rest⟩

/-- What a declared type refers to is declared. -/
theorem declares_of_mem_referencesOfDeclared : ∀ type : Option TypeExpr,
    ∀ d ∈ referencesOfDeclared w file params type, w.Declares .type d
  | none => fun _ hd => absurd hd List.not_mem_nil
  | some type => by
      rw [referencesOfDeclared]
      exact declares_of_mem_referencesOf type

/-- What a member of an object type refers to is declared. -/
theorem declares_of_mem_referencesOfMember : ∀ member : TypeMember,
    ∀ d ∈ referencesOfMember w file params member, w.Declares .type d
  | .property _ _ _ type | .getter _ _ type => by
      rw [referencesOfMember]
      exact declares_of_mem_referencesOfDeclared type
  | .method _ _ _ _ | .other => fun _ hd => absurd hd List.not_mem_nil

/-- What the members of an object type refer to is declared. -/
theorem declares_of_mem_referencesOfMembers : ∀ members : List TypeMember,
    ∀ d ∈ referencesOfMembers w file params members, w.Declares .type d
  | [] => fun _ hd => absurd hd List.not_mem_nil
  | member :: rest => by
      rw [referencesOfMembers]
      exact List.forall_mem_append.mpr
        ⟨declares_of_mem_referencesOfMember member, declares_of_mem_referencesOfMembers rest⟩

end

/-- What the defaults of type parameters refer to is declared. -/
theorem declares_of_mem_referencesOfDefaults (paramList : List TypeParam) :
    ∀ params : List String, ∀ d ∈ referencesOfDefaults w file params paramList,
      w.Declares .type d := by
  induction paramList with
  | nil => exact fun _ _ hd => absurd hd List.not_mem_nil
  | cons param rest ih =>
      intro params
      rw [referencesOfDefaults]
      exact List.forall_mem_append.mpr
        ⟨declares_of_mem_referencesOfDeclared param.default, ih _⟩

/-- What a declaration refers to is declared. -/
theorem Refers.declares {d target : Declaration} (h : w.Refers d target) :
    w.Declares .type target := by
  rcases List.mem_append.mp h with hdefault | hpart
  · exact declares_of_mem_referencesOfDefaults d.params [] target hdefault
  · rw [Declaration.partReferences] at hpart
    cases hnode : d.node with
    | interfaceNode decl =>
        simp only [hnode] at hpart
        rcases List.mem_append.mp hpart with hparent | hmember
        · obtain ⟨parent, -, htarget⟩ := List.mem_flatMap.mp hparent
          rw [referencesOfParent] at htarget
          split at htarget
          · exact declares_of_mem_referencesOf _ target htarget
          · exact absurd htarget List.not_mem_nil
        · exact declares_of_mem_referencesOfMembers decl.members target hmember
    | aliasNode decl =>
        simp only [hnode] at hpart
        exact declares_of_mem_referencesOf _ target hpart
    | classNode value =>
        simp only [hnode] at hpart
        obtain ⟨field, -, htarget⟩ := List.mem_flatMap.mp hpart
        exact declares_of_mem_referencesOfDeclared field.type target htarget
    | enumNode | functionNode | variableNode =>
        simp only [hnode] at hpart
        exact absurd hpart List.not_mem_nil

/-- What refers to nothing is not recursive. -/
theorem not_recursive_of_references_nil {d : Declaration} (h : d.references w = []) :
    ¬w.Recursive d := by
  rintro ⟨target, hpath, -⟩
  obtain ⟨next, hnext, -⟩ := Relation.TransGen.head'_iff.mp hpath
  rw [Refers, h] at hnext
  exact absurd hnext List.not_mem_nil

/-! ## Two paths -/

/-- Of everything that the declarations lead to, the same is open on both paths. -/
def SameOpen (w : Workspace) (opened opened' : List DeclarationKey) (ds : List Declaration) :
    Prop :=
  ∀ d ∈ ds, ∀ target, w.Reaches d target → (target.key ∈ opened ↔ target.key ∈ opened')

/-- Looking into a declaration opens it on both paths. -/
theorem SameOpen.inside {opened opened' : List DeclarationKey} {ds : List Declaration}
    (h : w.SameOpen opened opened' ds) {d : Declaration} (hd : d ∈ ds) :
    w.SameOpen (d.key :: opened) (d.key :: opened') (d.references w) := by
  intro next hnext target htarget
  rw [List.mem_cons, List.mem_cons, h d hd target (.head hnext htarget)]

/-- **Two paths**: with room for all declarations, expanders on two paths agree on the declarations
    from which the same open ones can be reached. -/
theorem expander_agreeOn (room : Nat) : ∀ {opened opened' : List DeclarationKey}
    {ds : List Declaration}, (w.closedKeys opened).card ≤ room →
      (∀ d ∈ ds, w.Declares .type d) → w.SameOpen opened opened' ds →
        AgreeOn (expanderWithin w (w.typeCount + 1) opened).schema
          (expanderWithin w (w.typeCount + 1) opened').schema ds := by
  induction room with
  | zero =>
      intro opened opened' ds hroom hdeclared h d hd args
      have hsame := h d hd d .refl
      -- Nothing is left to be opened, so the declaration is open.
      have hopen : d.key ∈ opened := by
        by_contra hclosed
        have hlt := card_closedKeys_lt (hdeclared d hd) hclosed
        omega
      rw [(expander_hands_down_path (hdeclared d hd) opened).1 args,
        (expander_hands_down_path (hdeclared d hd) opened').1 args,
        if_pos (List.contains_iff_mem.mpr hopen),
        if_pos (List.contains_iff_mem.mpr (hsame.mp hopen))]
  | succ room ih =>
      intro opened opened' ds hroom hdeclared h d hd args
      have hsame := h d hd d .refl
      rw [(expander_hands_down_path (hdeclared d hd) opened).1 args,
        (expander_hands_down_path (hdeclared d hd) opened').1 args]
      by_cases hopen : d.key ∈ opened
      · rw [if_pos (List.contains_iff_mem.mpr hopen),
          if_pos (List.contains_iff_mem.mpr (hsame.mp hopen))]
      · rw [if_neg fun hcontains => hopen (List.contains_iff_mem.mp hcontains),
          if_neg fun hcontains => hopen (hsame.mpr (List.contains_iff_mem.mp hcontains))]
        have hlt := card_closedKeys_lt (hdeclared d hd) hopen
        exact declarationSchema_congr
          (ih (by omega) (fun _ hnext => Refers.declares hnext) (h.inside hd)) args

/-- No open declaration can be reached from the declarations. -/
def Clear (w : Workspace) (opened : List DeclarationKey) (ds : List Declaration) : Prop :=
  ∀ d ∈ ds, ∀ target, w.Reaches d target → target.key ∉ opened

/-- Where nothing is open, nothing open can be reached. -/
theorem Clear.nil (w : Workspace) (ds : List Declaration) : w.Clear [] ds :=
  fun _ _ _ _ => List.not_mem_nil

/-- What can be reached from fewer declarations. -/
theorem Clear.mono {opened : List DeclarationKey} {ds ds' : List Declaration}
    (h : w.Clear opened ds) (hsubset : ds' ⊆ ds) : w.Clear opened ds' :=
  fun d hd => h d (hsubset hd)

/-- Inside a declaration that is not recursive, no open declaration can be reached if none could
    outside. -/
theorem Clear.inside {opened : List DeclarationKey} {ds : List Declaration} (h : w.Clear opened ds)
    {d : Declaration} (hd : d ∈ ds) (hrecursive : ¬w.Recursive d) :
    w.Clear (d.key :: opened) (d.references w) := by
  intro next hnext target htarget hopen
  rcases List.mem_cons.mp hopen with hself | hopen
  · exact hrecursive ⟨target, .head' hnext htarget, hself⟩
  · exact h d hd target (.head hnext htarget) hopen

/-- Declarations from which no open declaration can be reached are looked into as if none was
    open. -/
theorem Clear.agreeOn {opened : List DeclarationKey} {ds : List Declaration}
    (h : w.Clear opened ds) (hdeclared : ∀ d ∈ ds, w.Declares .type d) :
    AgreeOn (expanderWithin w (w.typeCount + 1) opened).schema w.expander.schema ds :=
  expander_agreeOn _ (w.card_closedKeys_le opened) hdeclared fun d hd target htarget =>
    iff_of_false (h d hd target htarget) List.not_mem_nil

/-- A type from which no open declaration can be reached is read as if none was open. -/
theorem declaredSchema_of_clear {opened : List DeclarationKey} {scope : Scope}
    {params : List String} (hbinds : scope.Binds params) {type : Option TypeExpr}
    (h : w.Clear opened (referencesOfDeclared w scope.file params type)) :
    declaredSchema w (expanderWithin w (w.typeCount + 1) opened).schema scope type =
      declaredSchema w w.expander.schema scope type :=
  declaredSchema_congr hbinds type (h.agreeOn (declares_of_mem_referencesOfDeclared type))

end Workspace

end ElementCatalog
