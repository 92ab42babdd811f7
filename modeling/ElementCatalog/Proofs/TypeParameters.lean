import ElementCatalog.Component.Surface
import ElementCatalog.Proofs.ExpansionPaths
import ElementCatalog.Proofs.NameReadings
import ElementCatalog.Types.ShapeTypes

/-!
# Type parameters of components

The type parameters of a class or a function are bound when a type refers to it by its name, but not
when a component is read from it: its fields, its input shape and its callbacks are read in the
scope of the file.  Toward: that makes no difference exactly if, in the file, each parameter is read
like its default, or like an unconstrained type if it has none.  The route:

* the scope with parameters differs from the one without them only in what their names mean, so
  everything else is read alike;
* a parameter stands for its default, read with the parameters before it.
-/

namespace ElementCatalog

open Source (TypeExpr TypeParam)
open ElementCatalog.Types

namespace Workspace

/-- The scope in which type parameters that are given no arguments stand for their defaults. -/
def ownScope (w : Workspace) (params : List TypeParam) (scope : Scope) : Scope :=
  bindParams w w.expander.schema params [] scope

/-- Without the parameters being bound, each of them is read like its default, or like an
    unconstrained type if it has none.  Of two parameters of one name the last one counts. -/
def ReadsDefaults (w : Workspace) (params : List TypeParam) (scope : Scope) : Prop :=
  ∀ before p after, params = before ++ p :: after → p.name ∉ after.map (·.name) →
    ∀ args, w.schemaIn scope (.reference (.ident p.name) args) =
      declaredSchema w w.expander.schema (w.ownScope before scope) p.default

variable {w : Workspace} {scope : Scope}

/-- A name that is no parameter means what it meant. -/
theorem find?_ownScope_of_notMem {params : List TypeParam} {name : String}
    (h : name ∉ params.map (·.name)) :
    Dictionary.find? (w.ownScope params scope).bindings name =
      Dictionary.find? scope.bindings name :=
  find?_bindParams_of_notMem w _ h [] scope

/-- A parameter stands for its default. -/
theorem find?_ownScope {before after : List TypeParam} {p : TypeParam}
    (h : p.name ∉ after.map (·.name)) :
    Dictionary.find? (w.ownScope (before ++ p :: after) scope).bindings p.name =
      some (declaredSchema w w.expander.schema (w.ownScope before scope) p.default) :=
  find?_bindParams w _ h [] scope

/-- A parameter is read as its default. -/
theorem schemaIn_ownScope {before after : List TypeParam} {p : TypeParam}
    (h : p.name ∉ after.map (·.name)) (args : List TypeExpr) :
    w.schemaIn (w.ownScope (before ++ p :: after) scope) (.reference (.ident p.name) args) =
      declaredSchema w w.expander.schema (w.ownScope before scope) p.default := by
  rw [schemaIn, schemaOf, find?_ownScope h]

/-- The last parameter of a name. -/
theorem exists_last_param {params : List TypeParam} {name : String}
    (h : name ∈ params.map (·.name)) :
    ∃ before p after, params = before ++ p :: after ∧ p.name = name ∧
      p.name ∉ after.map (·.name) := by
  induction params with
  | nil => exact absurd h List.not_mem_nil
  | cons first rest ih =>
      by_cases hrest : name ∈ rest.map (·.name)
      · obtain ⟨before, p, after, rfl, hname, hafter⟩ := ih hrest
        exact ⟨first :: before, p, after, rfl, hname, hafter⟩
      · rcases List.mem_cons.mp h with rfl | hmem
        · exact ⟨[], first, rest, rfl, rfl, hrest⟩
        · exact absurd hmem hrest

/-- If a scope reads defaults for parameters, references to them are read alike with and without the
    parameters being bound. -/
theorem ReadsDefaults.namesAlike {params : List TypeParam} (h : w.ReadsDefaults params scope) :
    NamesAlike w w w.expander.schema w.expander.schema scope (w.ownScope params scope) := by
  have hfile : (w.ownScope params scope).file = scope.file := file_bindParams w _ params [] scope
  constructor
  case named =>
    intro name args hargs
    by_cases hparam : name ∈ params.map (·.name)
    -- Of several parameters of one name the last one is bound, so its default counts.
    · obtain ⟨before, p, after, rfl, rfl, hafter⟩ := exists_last_param hparam
      exact (h before p after rfl hafter args).trans (schemaIn_ownScope hafter args).symm
    · have hfirst := firstSchema_eq w w.expander.schema scope args
      rw [hargs, ← firstSchema_eq] at hfirst
      rw [schemaOf, schemaOf, find?_ownScope_of_notMem hparam, hfile, hargs, hfirst]
  case qualified =>
    intro outer name args hargs
    rw [schemaOf, schemaOf, hfile, hargs]

/-- Types are read as if the parameters were bound exactly if each parameter is read like its
    default. -/
theorem readsDefaults_iff (w : Workspace) (params : List TypeParam) (scope : Scope) :
    (∀ type, w.schemaIn scope type = w.schemaIn (w.ownScope params scope) type) ↔
      w.ReadsDefaults params scope := by
  constructor
  · rintro h before p after rfl hafter args
    rw [h]
    exact schemaIn_ownScope hafter args
  · exact fun h type => schemaOf_alike h.namesAlike type

/-- A name that is not bound, not well known and not declared is read like an unconstrained type. -/
theorem schemaIn_of_unknown {name : String} (hbound : Dictionary.find? scope.bindings name = none)
    (hknown : wellKnown? name = none) (htype : w.type? scope.file name = none)
    (args : List TypeExpr) :
    w.schemaIn scope (.reference (.ident name) args) = .unconstrained := by
  rw [schemaIn, schemaOf, hbound, hknown, htype]

/-! ## Components -/

/-- Reading a class stays in its file. -/
theorem file_readClass (s : Surface) (value : Source.ClassDef) :
    (s.readClass w value).file = s.file := by
  have hfold : ∀ (shapes : List (List ShapeMember)) (s : Surface),
      (shapes.foldl Surface.addShape s).file = s.file := by
    intro shapes
    induction shapes with
    | nil => exact fun _ => rfl
    | cons first rest ih => exact fun s => ih (s.addShape first)
  exact hfold _ _

/-- Reading a function stays in its file. -/
theorem file_readDeclared (s : Surface) (value : Source.Function) :
    (s.readDeclared w value).file = s.file := by
  rw [Surface.readDeclared, Surface.readFunction]
  split
  · rfl
  · rename_i pattern type _
    cases pattern <;> cases type <;> rfl

/-- The member of an object type is read in the scope of the object type. -/
theorem memberSchema_of_mem {start : Source.Position} {key : Source.MemberKey} {optional : Bool}
    {type : TypeExpr} {m : ShapeMember}
    (h : m ∈ w.membersIn scope (.object [.property start key optional (some type)])) :
    w.memberSchema m = w.schemaIn scope type := by
  rw [membersIn, membersOf, ownMembers] at h
  obtain ⟨member, hmember, hm⟩ := List.mem_filterMap.mp h
  rw [List.mem_singleton.mp hmember, ownMember?] at hm
  obtain ⟨name, -, rfl⟩ := Option.map_eq_some_iff.mp hm
  rfl

/-- **Type parameters of components**: the fields of a class, the members of an input shape and the
    payloads of function types are read in the scope around them.  That is how they would be read
    with the type parameters of the class, the function or the function type bound to their defaults
    exactly if, without them, each parameter is read like its default. -/
theorem own_type_params_read_iff (w : Workspace) :
    (∀ (s : Surface) (value : Source.ClassDef),
      (∀ type, (s.readClass w value).schemaOf w type =
          w.schemaIn (w.ownScope value.params (.ofFile s.file)) type) ↔
        w.ReadsDefaults value.params (.ofFile s.file)) ∧
    (∀ (s : Surface) (value : Source.Function),
      (∀ type, (s.readDeclared w value).schemaOf w type =
          w.schemaIn (w.ownScope value.typeParams (.ofFile s.file)) type) ↔
        w.ReadsDefaults value.typeParams (.ofFile s.file)) ∧
    (∀ (scope : Scope) (params : List TypeParam),
      (∀ start key optional type,
        ∀ m ∈ w.membersIn scope (.object [.property start key optional (some type)]),
          w.memberSchema m = w.schemaIn (w.ownScope params scope) type) ↔
        w.ReadsDefaults params scope) ∧
    ∀ (scope : Scope) (params : List TypeParam),
      (∀ type, ∀ callback ∈ callbackOf? w w.expander scope (.function (some type)),
          w.payloadOf callback = some (w.schemaIn (w.ownScope params scope) type)) ↔
        w.ReadsDefaults params scope := by
  -- All four are read in the scope around them, so each is the general statement at that scope.
  refine ⟨fun s value => ?_, fun s value => ?_, fun scope params => ?_, fun scope params => ?_⟩
  · simp only [Surface.schemaOf, file_readClass]
    exact readsDefaults_iff w value.params (.ofFile s.file)
  · simp only [Surface.schemaOf, file_readDeclared]
    exact readsDefaults_iff w value.typeParams (.ofFile s.file)
  · refine Iff.trans ⟨fun h type => ?_, fun h start key optional type m hm => ?_⟩
      (readsDefaults_iff w params scope)
    · have hmember := h ⟨0, 0⟩ (.ident "value" false) false type _ (List.mem_singleton.mpr rfl)
      exact hmember
    · rw [memberSchema_of_mem hm, h]
  · refine Iff.trans ⟨fun h type => ?_, fun h type callback hcallback => ?_⟩
      (readsDefaults_iff w params scope)
    · exact Option.some.inj (h type _ rfl)
    · cases hcallback
      exact congrArg some (h type)

/-! ## A hidden default -/

/-- A module with an alias that has the name of a type parameter. -/
def aliasModule : ParsedFile :=
  { path := ⟨[.root, .name "card.ts"]⟩
    module := ⟨[.aliasDecl ⟨⟨0, 1⟩, "T", [], ⟨.keyword .number, []⟩⟩], []⟩
    discoverable := true }

/-- The file of that module. -/
def aliasFile : SourceFile :=
  Program.placed ⟨[.root]⟩ aliasModule 0

/-- The workspace of that file alone. -/
def aliasWorkspace : Workspace :=
  .ofProgram (.ofParsed ⟨[.root]⟩ [aliasModule]) {}

/-- A class with the type parameter `T = string`. -/
def cardClass : Source.ClassDef :=
  { start := ⟨20, 2⟩
    decorators := []
    params := [⟨"T", some (.keyword .string), []⟩]
    superClass := none
    superArgs := []
    implemented := []
    members := [] }

/-- The declaration of the alias. -/
def aliasDeclaration : Declaration :=
  ⟨"T", aliasFile, .aliasNode ⟨⟨0, 1⟩, "T", [], ⟨.keyword .number, []⟩⟩, [⟨0, 1⟩], ⟨0, 1⟩⟩

/-- In that file the name of the parameter is read as a number. -/
theorem schemaIn_alias :
    aliasWorkspace.schemaIn (.ofFile aliasFile) (.reference (.ident "T") []) = .number := by
  have htype : aliasWorkspace.type? aliasFile "T" = some aliasDeclaration :=
    type?_placed _ _ _ rfl
  have hbound : Dictionary.find? (Scope.ofFile aliasFile).bindings "T" = none := rfl
  have hknown : wellKnown? "T" = none := rfl
  have hexpand := (expander_hands_down_path (resolve?_declares htype) []).1 []
  rw [schemaIn, schemaOf, hbound, hknown]
  dsimp only [Scope.ofFile]
  rw [htype]
  exact hexpand

/-- In that file, a field of the class is not read as if the default of the parameter counted. -/
theorem hidden_default_not_read : ∃ type,
    ((Surface.bare "Card" aliasFile {}).readClass aliasWorkspace cardClass).schemaOf aliasWorkspace
        type ≠
      aliasWorkspace.schemaIn
        (aliasWorkspace.ownScope cardClass.params (.ofFile aliasFile)) type := by
  by_contra hall
  have hreads := ((own_type_params_read_iff aliasWorkspace).1 _ cardClass).mp fun type =>
    not_not.mp (not_exists.mp hall type)
  have hstring : aliasWorkspace.schemaIn (.ofFile aliasFile) (.reference (.ident "T") []) =
      .string := hreads [] _ [] rfl List.not_mem_nil []
  rw [schemaIn_alias] at hstring
  cases hstring

end Workspace

end ElementCatalog
