import ElementCatalog.Proofs.AliasReadings
import ElementCatalog.Proofs.NamespaceHandlers

/-!
# Callbacks behind aliases

The type of a member may come to a function type through parentheses, unions with null and
references to aliases, which may be generic and stand in any file.  Toward: on every path of open
declarations the callback of such a type is found, and its payload is read where the function type
is written, with the parameters of the aliases bound.  The arguments are read before that, on the
path, so that an argument that leads to an open declaration is unconstrained there.  The route:

* an alias that is not open is looked into on the path that has it open;
* by induction on how the type comes to the function type.
-/

namespace ElementCatalog

open Source (Position TypeExpr TypeMember TypeUse ClassDef ClassMember MemberKey)
open ElementCatalog.Types

namespace Workspace

/-- Inside the expansion of the `opened` declarations, a type that is read in a scope comes to a
    function type, whose first parameter is read in the scope `inner`. No alias on the way is open
    when it is met. -/
inductive LeadsToFunction (w : Workspace) :
    (opened : List DeclarationKey) → (scope : Scope) → TypeExpr →
      (parameter : Option TypeExpr) → (inner : Scope) → Prop where
  | function {opened scope parameter} :
    LeadsToFunction w opened scope (.function parameter) parameter scope
  | paren {opened scope type parameter inner}
    (h : LeadsToFunction w opened scope type parameter inner) :
    LeadsToFunction w opened scope (.paren type) parameter inner
  | union {opened scope before type after parameter inner}
    (hbefore : before.all isNullish = true) (hafter : after.all isNullish = true)
    (h : LeadsToFunction w opened scope type parameter inner) :
    LeadsToFunction w opened scope (.union (before ++ type :: after)) parameter inner
  | aliasReference {opened scope name args d decl parameter inner} (hplain : name ≠ "Function")
    (hbound : Dictionary.find? scope.bindings name = none) (hd : w.type? scope.file name = some d)
    (hnode : d.node = .aliasNode decl) (hclosed : d.key ∉ opened)
    (h : LeadsToFunction w (d.key :: opened) (w.boundScope (d.key :: opened) d args scope)
      decl.type.type parameter inner) :
    LeadsToFunction w opened scope (.reference (.ident name) args) parameter inner

section Callbacks

variable {w : Workspace} {opened : List DeclarationKey} {scope : Scope} {type : TypeExpr}
  {parameter : Option TypeExpr} {inner : Scope}

/-- A type that comes to a function type stands for a value. -/
theorem LeadsToFunction.not_nullish (h : w.LeadsToFunction opened scope type parameter inner) :
    isNullish type = false := by
  cases h <;> rfl

/-- The callback of a type that comes to a function type is that of the function type. -/
theorem LeadsToFunction.callbackOf?_eq (h : w.LeadsToFunction opened scope type parameter inner) :
    callbackOf? w (w.expanderOn opened) scope type = some ⟨parameter, inner⟩ := by
  induction h with
  | function => rw [callbackOf?]
  | paren _ ih => rw [callbackOf?, ih]
  | union hbefore hafter h ih =>
      rw [callbackOf?, soleCallback?_append _ hbefore hafter h.not_nullish, ih]
  -- The arguments are read where the alias is open already, like its type.
  | @aliasReference opened scope name args d decl _ _ hplain hbound hd hnode hclosed _ ih =>
      have hparams : d.params = decl.params := by rw [Declaration.params, hnode]
      rw [boundScope, Declaration.ownScope, hparams] at ih
      rw [callbackOf?]
      exact (referencedCallback?_alias args hplain hbound hd hnode hclosed).trans ih

/-- A union of several types that stand for a value has no callback. -/
theorem soleCallback?_eq_none (e : Expander) {members : List TypeExpr}
    (h : 1 < members.countP fun type => !isNullish type) :
    soleCallback? w e scope members = none := by
  induction members with
  | nil => exact absurd h (Nat.not_lt_zero 1)
  | cons first rest ih =>
      rw [soleCallback?]
      rw [List.countP_cons] at h
      cases hfirst : isNullish first with
      | true => exact ih (by simpa [hfirst] using h)
      | false =>
          -- The first one stands for a value, so another one must be among the rest.
          have hrest : 0 < rest.countP fun type => !isNullish type := by
            rw [hfirst] at h
            exact Nat.lt_of_succ_lt_succ h
          obtain ⟨another, hmem, hanother⟩ := List.countP_pos_iff.mp hrest
          have hall : rest.all isNullish = false :=
            List.all_eq_false.mpr ⟨another, hmem, by simpa using hanother⟩
          rw [hall]
          rfl

end Callbacks

/-- **Callbacks behind aliases**: inside the expansion of any open declarations, a type that comes to
    a function type has a callback, whose payload is the first parameter of the function type read
    where that is written, with nothing open; a property and a public field with such a type carry
    it. A union of several types that stand for a value has no callback. The scope of an alias
    binds its parameters; arguments and defaults are read while the alias and everything around the
    member are open, so what is open is unconstrained in them, and one that leads to nothing open is
    read as anywhere else. An alias that is not recursive is not open if nothing open can be reached
    from it, and the same then holds of what it refers to. -/
theorem callbacks_found_through_aliases (w : Workspace) (opened : List DeclarationKey)
    (scope : Scope) :
    let e := w.expanderOn opened
    (∀ (type : TypeExpr) (parameter : Option TypeExpr) (inner : Scope),
      w.LeadsToFunction opened scope type parameter inner →
        ∃ callback, callbackOf? w e scope type = some callback ∧
          w.payloadOf callback = parameter.map (w.schemaIn inner) ∧
          (∀ (members : List TypeMember) (start : Position) (key : MemberKey) (optional : Bool)
            (name : String), .property start key optional (some type) ∈ members →
              key.name? = some name →
                ⟨name, optional, some type, some callback, start, scope⟩ ∈
                  ownMembers w e scope members) ∧
          ∀ (value : ClassDef), ∀ field ∈ classFields value, field.type = some type →
            ⟨field.name, field.optional, some type, some callback, field.start, scope⟩ ∈
              classMembers w e scope value) ∧
    (∀ members : List TypeExpr, (1 < members.countP fun type => !isNullish type) →
      callbackOf? w e scope (.union members) = none) ∧
    (∀ (d : Declaration) (args : List TypeExpr),
      w.BindsParams opened d args scope (w.boundScope opened d args scope)) ∧
    (∀ (d : Declaration) (args : List Schema), w.Declares .type d → d.key ∈ opened →
      e.schema d args = .unconstrained) ∧
    (∀ (params : List String) (type : TypeExpr), scope.Binds params →
      w.Clear opened (referencesOf w scope.file params type) →
        schemaOf w e.schema scope type = w.schemaIn scope type) ∧
    ∀ d : Declaration, ¬w.Recursive d → w.Clear opened [d] →
      d.key ∉ opened ∧ w.Clear (d.key :: opened) (d.references w) := by
  intro e
  refine ⟨fun type parameter inner h => ?_, fun members h => ?_,
    fun d args => w.boundScope_bindsParams opened d args scope, fun d args hd hopen => ?_,
    fun params type hbinds hclear => ?_, fun d hrecursive hclear => ⟨?_, ?_⟩⟩
  · have hcallback : callbackOf? w e scope type = some ⟨parameter, inner⟩ := h.callbackOf?_eq
    refine ⟨⟨parameter, inner⟩, hcallback, rfl, fun members start key optional name hmem hname => ?_,
      fun value field hfield htype => ?_⟩
    · refine List.mem_filterMap.mpr ⟨_, hmem, ?_⟩
      rw [ownMember?, hname, Option.map_some, Option.bind_some, hcallback]
    · refine List.mem_map.mpr ⟨field, hfield, ?_⟩
      rw [htype, Option.bind_some, hcallback]
  · rw [callbackOf?]
    exact soleCallback?_eq_none e h
  · exact ((expander_hands_down_path hd opened).1 args).trans
      (if_pos (List.contains_iff_mem.mpr hopen))
  · exact schemaOf_congr hbinds type (hclear.agreeOn (declares_of_mem_referencesOf type))
  · exact hclear d (List.mem_singleton.mpr rfl) d .refl
  · exact hclear.inside (List.mem_singleton.mpr rfl) hrecursive

/-! ## A type that hands itself to a handler -/

/-- The alias `type Handler<T> = (value: T) => void`. -/
def handlerAlias : Source.AliasDecl :=
  ⟨⟨0, 1⟩, "Handler", [⟨"T", none, []⟩], ⟨.function (some (.reference (.ident "T") [])), []⟩⟩

/-- The alias `type Function = (value: string) => void`. -/
def functionAlias : Source.AliasDecl :=
  ⟨⟨50, 2⟩, "Function", [], ⟨.function (some (.keyword .string)), []⟩⟩

/-- The type of items. -/
def itemType : TypeExpr :=
  .reference (.ident "Item") []

/-- The type of handlers of values of a type. -/
def handlerOf (type : TypeExpr) : TypeExpr :=
  .reference (.ident "Handler") [type]

/-- The type of items: they say when they are selected, and when they are saved. -/
def itemInterface : Source.InterfaceDecl :=
  { start := ⟨100, 3⟩
    name := "Item"
    params := []
    parents := []
    members :=
      [ .property ⟨120, 3⟩ (.ident "onSelect" false) false (some (handlerOf itemType)),
        .property ⟨145, 3⟩ (.ident "onSave" false) false
          (some (.reference (.ident "Function") [])) ]
    inner := [] }

/-- A module that declares these types. -/
def itemModule : ParsedFile :=
  { path := ⟨[.root, .name "items.ts"]⟩
    module := ⟨[.aliasDecl handlerAlias, .aliasDecl functionAlias, .interfaceDecl itemInterface],
      []⟩
    discoverable := true }

/-- The file of that module. -/
def itemFile : SourceFile :=
  Program.placed ⟨[.root]⟩ itemModule 0

/-- The workspace of that file alone. -/
def itemWorkspace : Workspace :=
  .ofProgram (.ofParsed ⟨[.root]⟩ [itemModule]) {}

/-- The declaration of handlers. -/
def handlerDeclaration : Declaration :=
  ⟨"Handler", itemFile, .aliasNode handlerAlias, [⟨0, 1⟩], ⟨0, 1⟩⟩

/-- The declaration of functions. -/
def functionDeclaration : Declaration :=
  ⟨"Function", itemFile, .aliasNode functionAlias, [⟨50, 2⟩], ⟨50, 2⟩⟩

/-- The declaration of items. -/
def itemDeclaration : Declaration :=
  ⟨"Item", itemFile, .interfaceNode itemInterface, [⟨100, 3⟩], ⟨100, 3⟩⟩

/-- The names refer to these declarations. -/
theorem items_declared : itemWorkspace.type? itemFile "Handler" = some handlerDeclaration ∧
    itemWorkspace.type? itemFile "Function" = some functionDeclaration ∧
    itemWorkspace.type? itemFile "Item" = some itemDeclaration :=
  ⟨type?_placed _ _ _ rfl, type?_placed _ _ _ rfl, type?_placed _ _ _ rfl⟩

/-- A handler comes to a function type wherever the alias is not open. -/
theorem handler_leadsToFunction (opened : List DeclarationKey) (type : TypeExpr)
    (hclosed : handlerDeclaration.key ∉ opened) :
    itemWorkspace.LeadsToFunction opened (.ofFile itemFile) (handlerOf type)
      (some (.reference (.ident "T") []))
      (itemWorkspace.boundScope (handlerDeclaration.key :: opened) handlerDeclaration [type]
        (.ofFile itemFile)) :=
  .aliasReference (by decide) rfl items_declared.1 rfl hclosed .function

/-- In that scope the parameter of the alias is read like the argument. -/
theorem schemaIn_handlerParam (opened : List DeclarationKey) (type : TypeExpr) :
    itemWorkspace.schemaIn
        (itemWorkspace.boundScope opened handlerDeclaration [type] (.ofFile itemFile))
        (.reference (.ident "T") []) =
      schemaOf itemWorkspace (itemWorkspace.expanderOn opened).schema (.ofFile itemFile) type :=
  schemaOf_bound ((itemWorkspace.boundScope_bindsParams opened handlerDeclaration [type] _).argument
    [] _ [] type rfl List.not_mem_nil rfl) _

/-- A handler of numbers that may be missing has numbers as its payload. -/
theorem number_handler_found :
    itemWorkspace.LeadsToFunction [] (.ofFile itemFile)
        (.union [.paren (handlerOf (.keyword .number)), .keyword .undefined])
        (some (.reference (.ident "T") []))
        (itemWorkspace.boundScope [handlerDeclaration.key] handlerDeclaration [.keyword .number]
          (.ofFile itemFile)) ∧
      ∃ callback, callbackOf? itemWorkspace itemWorkspace.expander (.ofFile itemFile)
          (.union [.paren (handlerOf (.keyword .number)), .keyword .undefined]) = some callback ∧
        itemWorkspace.payloadOf callback = some .number := by
  have hleads := @LeadsToFunction.union itemWorkspace [] (.ofFile itemFile) [] _
    [.keyword .undefined] _ _ rfl rfl
    (.paren (handler_leadsToFunction [] (.keyword .number) List.not_mem_nil))
  refine ⟨hleads, ?_⟩
  obtain ⟨callback, hcallback, hpayload, -⟩ :=
    (callbacks_found_through_aliases itemWorkspace [] (.ofFile itemFile)).1 _ _ _ hleads
  refine ⟨callback, hcallback, ?_⟩
  rw [hpayload, Option.map_some, schemaIn_handlerParam]
  rfl

/-- The members of items are read where items are open. -/
theorem membersIn_item : itemWorkspace.membersIn (.ofFile itemFile) itemType =
    ownMembers itemWorkspace (itemWorkspace.expanderOn [itemDeclaration.key]) (.ofFile itemFile)
      itemInterface.members := by
  have hexpand := (expander_hands_down_path (resolve?_declares items_declared.2.2) []).2.1 []
  rw [membersIn, itemType, membersOf, namedMembers_plain rfl, Scope.ofFile, items_declared.2.2]
  exact hexpand

/-- Inside the expansion of items, an item is unconstrained. -/
theorem schemaOf_open_item {opened : List DeclarationKey} (hopen : itemDeclaration.key ∈ opened) :
    schemaOf itemWorkspace (itemWorkspace.expanderOn opened).schema (.ofFile itemFile) itemType =
      .unconstrained := by
  rw [itemType, schemaOf_named rfl rfl items_declared.2.2]
  exact ((expander_hands_down_path (resolve?_declares items_declared.2.2) opened).1 _).trans
    (if_pos (List.contains_iff_mem.mpr hopen))

/-- From outside, an item is an object. -/
theorem schemaIn_item_ne : itemWorkspace.schemaIn (.ofFile itemFile) itemType ≠ .unconstrained := by
  rw [schemaIn, itemType, schemaOf_named rfl rfl items_declared.2.2]
  intro h
  have hexpand := (expander_hands_down_path (resolve?_declares items_declared.2.2) []).1 []
  cases hexpand.symm.trans h

/-- Neither of the two members of items has the payload that its function type has when the arguments
    are read with nothing open: `onSelect` is handed anything instead of an item, and `onSave` is
    handed nothing, because `Function` is well known. -/
theorem item_callbacks_differ :
    (¬itemWorkspace.Recursive handlerDeclaration ∧ ¬itemWorkspace.Recursive functionDeclaration) ∧
    (∃ m ∈ itemWorkspace.membersIn (.ofFile itemFile) itemType,
      m.name = "onSelect" ∧ m.type = some (handlerOf itemType) ∧
        m.callback.bind itemWorkspace.payloadOf = some .unconstrained ∧
        itemWorkspace.schemaIn
            (itemWorkspace.boundScope [] handlerDeclaration [itemType] (.ofFile itemFile))
            (.reference (.ident "T") []) ≠ .unconstrained) ∧
    ∃ m ∈ itemWorkspace.membersIn (.ofFile itemFile) itemType,
      m.name = "onSave" ∧ m.type = some (.reference (.ident "Function") []) ∧
        m.callback.bind itemWorkspace.payloadOf = none ∧
        itemWorkspace.schemaIn
            (itemWorkspace.boundScope [] functionDeclaration [] (.ofFile itemFile))
            (.keyword .string) = .string := by
  have hclosed : handlerDeclaration.key ∉ [itemDeclaration.key] := by decide
  rw [membersIn_item]
  refine ⟨⟨not_recursive_of_references_nil rfl, not_recursive_of_references_nil rfl⟩,
    ⟨_, List.mem_cons_self, rfl, rfl, ?_, ?_⟩,
    ⟨_, List.mem_cons_of_mem _ List.mem_cons_self, rfl, rfl, rfl, rfl⟩⟩
  · dsimp only
    rw [Option.bind_some, (handler_leadsToFunction _ itemType hclosed).callbackOf?_eq,
      Option.bind_some, payloadOf, Option.map_some, schemaIn_handlerParam,
      schemaOf_open_item (by decide)]
  · rw [schemaIn_handlerParam]
    exact schemaIn_item_ne

end Workspace

end ElementCatalog
