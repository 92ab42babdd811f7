import ElementCatalog.Component.Events
import ElementCatalog.Component.Properties
import ElementCatalog.Proofs.NameReadings
import ElementCatalog.Proofs.NamespaceParents
import ElementCatalog.Proofs.OpenDeclarations

/-!
# Handlers by namespace — members whose type names a handler through a namespace import

The type of a handler is named `H<A>` after an import by name, and `ns.H<A>` after an import of its
module as a namespace.  Toward: in an object type or a class, a member with the second type declares
the same property or event as with the first one exactly if its name does not mark an event, or `H`
stands for no callback.  The route:

* both types have the same schema, also inside parentheses and beside types of missing values;
* of the two only the plain name is looked up for a callback;
* so the members differ in their callbacks alone, and these decide between events and properties.
-/

namespace ElementCatalog

open Source (Position TypeExpr TypeMember MemberKey ClassDef ClassMember TypeUse)
open ElementCatalog.Types

/-! ## Imports of handlers -/

namespace Workspace

variable {w : Workspace} {file : SourceFile} {outer name : String} {found : Option Declaration}

/-- A file imports a name both by itself and in a namespace, from a module outside the program. -/
structure ImportsOutside (w : Workspace) (file : SourceFile) (outer name : String) : Prop where
  foreign : (w.symbolsOf file).declared? .type name = none
  outside : ∃ specifier, (w.symbolsOf file).import? name = some ⟨name, name, specifier⟩ ∧
    (w.symbolsOf file).import? outer = some ⟨outer, "*", specifier⟩ ∧
    w.moduleFile? file specifier = none ∧
    w.unexported? .type file ⟨name, name, specifier⟩ = none

/-- A file imports a name both by itself and in a namespace: from a module that exports a
    declaration under this name, or from one outside the program. -/
inductive ImportsBoth (w : Workspace) (file : SourceFile) (outer name : String) :
    Option Declaration → Prop where
  | exported {d : Declaration} (h : w.ImportsTwice file outer name d) :
    ImportsBoth w file outer name (some d)
  | outside (h : w.ImportsOutside file outer name) : ImportsBoth w file outer name none

/-- Only relative specifiers have a location. -/
theorem moduleCandidates_of_not_relative {path : Path} {specifier : String}
    (h : Path.isRelativeSpecifier specifier = false) :
    Path.specifierBase? path specifier = none ∧ Path.moduleCandidates path specifier = [] := by
  have hbase : Path.specifierBase? path specifier = none := by
    rw [Path.specifierBase?, h]
    rfl
  exact ⟨hbase, by rw [Path.moduleCandidates, hbase]⟩

/-- Only relative specifiers lead to files of the program. -/
theorem moduleFile?_of_not_relative {specifier : String}
    (h : Path.isRelativeSpecifier specifier = false) : w.moduleFile? file specifier = none := by
  rw [moduleFile?, (moduleCandidates_of_not_relative h).2]
  rfl

/-- Only imports with relative specifiers may mean something that is not exported. -/
theorem unexported?_of_not_relative {i : Import}
    (h : Path.isRelativeSpecifier i.specifier = false) : w.unexported? .type file i = none := by
  obtain ⟨hbase, hcandidates⟩ := @moduleCandidates_of_not_relative file.path _ h
  rw [unexported?, Path.fallbackCandidates, hbase, hcandidates]
  exact ite_self none

/-- The plain name leads to what the module exports. -/
theorem ImportsBoth.type?_eq (h : w.ImportsBoth file outer name found) :
    w.type? file name = found := by
  cases h with
  | exported h => exact h.type?_eq
  | outside h =>
      obtain ⟨specifier, himport, -, htarget, hunexported⟩ := h.outside
      rw [type?, resolve?, h.foreign, himport, Option.none_or, Option.bind_some, imported?,
        hunexported]
      dsimp only
      rw [htarget]
      rfl

/-- The qualified name leads to what the module exports. -/
theorem ImportsBoth.qualifiedType?_eq (h : w.ImportsBoth file outer name found) :
    w.qualifiedType? file outer name = found := by
  cases h with
  | exported h => exact h.qualifiedType?_eq
  | outside h =>
      obtain ⟨specifier, -, himport, htarget, -⟩ := h.outside
      rw [qualifiedType?, himport, Option.bind_eq_bind, Option.bind_some]
      dsimp only
      rw [htarget]
      rfl

end Workspace

namespace Types

/-! ## Types in both spellings -/

/-- Two types that name a handler, the first one by a namespace and the second one plainly. The name
    may stand in parentheses, and in a union with types that stand for no value. -/
inductive Respelled (outer name : String) (args : List TypeExpr) : TypeExpr → TypeExpr → Prop where
  | reference : Respelled outer name args (.reference (.qualified (.ident outer) name) args)
      (.reference (.ident name) args)
  | paren {qualified plain : TypeExpr} (h : Respelled outer name args qualified plain) :
    Respelled outer name args (.paren qualified) (.paren plain)
  | union {qualified plain : TypeExpr} {before after : List TypeExpr}
    (hbefore : before.all isNullish = true) (hafter : after.all isNullish = true)
    (h : Respelled outer name args qualified plain) :
    Respelled outer name args (.union (before ++ qualified :: after))
      (.union (before ++ plain :: after))

section Respelled

variable {w : Workspace} {scope : Scope} {outer name : String} {args : List TypeExpr}
  {qualified plain : TypeExpr} {found : Option Declaration}

/-- A type that names a handler stands for a value. -/
theorem Respelled.not_nullish (h : Respelled outer name args qualified plain) :
    isNullish qualified = false ∧ isNullish plain = false := by
  cases h <;> exact ⟨rfl, rfl⟩

/-- What stands for no value is passed over on the way to the only callback of a union. -/
theorem soleCallback?_append (e : Expander) {before after : List TypeExpr} {type : TypeExpr}
    (hbefore : before.all isNullish = true) (hafter : after.all isNullish = true)
    (htype : isNullish type = false) :
    soleCallback? w e scope (before ++ type :: after) = callbackOf? w e scope type := by
  induction before with
  | nil =>
      rw [List.nil_append, soleCallback?, htype, hafter]
      rfl
  | cons first rest ih =>
      rw [List.all_cons, Bool.and_eq_true] at hbefore
      rw [List.cons_append, soleCallback?, hbefore.1]
      exact ih hbefore.2

/-- A handler that is named by a namespace stands for no callback, and a plain name for that of its
    reference. -/
theorem Respelled.callback (w : Workspace) (e : Expander) (scope : Scope)
    (h : Respelled outer name args qualified plain) :
    callbackOf? w e scope qualified = none ∧
      callbackOf? w e scope plain = referencedCallback? w e scope name args := by
  induction h with
  | reference => exact ⟨by rw [callbackOf?] <;> nofun, by rw [callbackOf?]⟩
  | paren _ ih => rwa [callbackOf?, callbackOf?]
  | union hbefore hafter h ih =>
      rw [callbackOf?, callbackOf?,
        soleCallback?_append e hbefore hafter h.not_nullish.1,
        soleCallback?_append e hbefore hafter h.not_nullish.2]
      exact ih

/-- Unions that differ in one member with the same schema have the same schema. -/
theorem definedSchemasOf_replace (expand : Expand) {before after : List TypeExpr}
    {type type' : TypeExpr} (hdefined : isUndefined type = false)
    (hdefined' : isUndefined type' = false)
    (h : schemaOf w expand scope type = schemaOf w expand scope type') :
    definedSchemasOf w expand scope (before ++ type :: after) =
      definedSchemasOf w expand scope (before ++ type' :: after) := by
  rw [definedSchemasOf_insert expand before after hdefined,
    definedSchemasOf_insert expand before after hdefined', h]

/-- A type that names a handler does not stand for a missing value. -/
theorem Respelled.not_undefined (h : Respelled outer name args qualified plain) :
    isUndefined qualified = false ∧ isUndefined plain = false := by
  cases h <;> exact ⟨rfl, rfl⟩

/-- Both spellings have the same schema. -/
theorem Respelled.same_schema (expand : Expand) (h : Respelled outer name args qualified plain)
    (himports : w.ImportsBoth scope.file outer name found)
    (hbound : Dictionary.find? scope.bindings name = none) (hknown : wellKnown? name = none)
    (henum : enumMembers? (w.type? scope.file outer) = none) :
    schemaOf w expand scope qualified = schemaOf w expand scope plain := by
  induction h with
  | reference =>
      rw [schemaOf, schemaOf, henum, himports.qualifiedType?_eq, hbound, hknown,
        himports.type?_eq]
  | paren _ ih => rw [schemaOf, schemaOf, ih]
  | union _ _ h ih =>
      rw [schemaOf, schemaOf,
        definedSchemasOf_replace expand h.not_undefined.1 h.not_undefined.2 ih]

end Respelled

/-! ## Properties and events of members -/

/-- Two shapes declare the same properties and the same events. -/
structure ReadAlike (w : Workspace) (s : Surface) (shape shape' : List ShapeMember) : Prop where
  properties : shape.filterMap (Surface.shapeProperty? w s) =
    shape'.filterMap (Surface.shapeProperty? w s)
  events : shape.filterMap (Surface.callbackEvent? w) = shape'.filterMap (Surface.callbackEvent? w)

/-- The member of a shape that is declared with a name and a type. -/
def typedMember (w : Workspace) (e : Expander) (scope : Scope) (name : String) (optional : Bool)
    (anchor : Position) (type : TypeExpr) : ShapeMember :=
  ⟨name, optional, some type, callbackOf? w e scope type, anchor, scope⟩

section Members

variable {w : Workspace} {e : Expander} {scope : Scope}

/-- Shapes that differ in one place are read alike exactly if they are so in this place. -/
theorem readAlike_append {s : Surface} {before after shape shape' : List ShapeMember} :
    ReadAlike w s (before ++ shape ++ after) (before ++ shape' ++ after) ↔
      ReadAlike w s shape shape' := by
  constructor
  · rintro ⟨hproperties, hevents⟩
    simp only [List.filterMap_append, List.append_assoc, List.append_cancel_left_eq,
      List.append_cancel_right_eq] at hproperties hevents
    exact ⟨hproperties, hevents⟩
  · rintro ⟨hproperties, hevents⟩
    exact ⟨by simp only [List.filterMap_append, hproperties],
      by simp only [List.filterMap_append, hevents]⟩

/-- The members of an object type around one of its properties. -/
theorem ownMembers_property (before after : List TypeMember) (start : Position) (key : MemberKey)
    (optional : Bool) (type : TypeExpr) :
    ownMembers w e scope (before ++ .property start key optional (some type) :: after) =
      ownMembers w e scope before ++
        (key.name?.map fun name => typedMember w e scope name optional start type).toList ++
        ownMembers w e scope after := by
  rw [ownMembers, List.filterMap_append, List.filterMap_cons, List.append_assoc]
  cases hname : key.name? with
  | none => simp only [ownMember?, hname, Option.map_none, Option.toList_none, List.nil_append,
      ownMembers]
  | some name => simp only [ownMember?, hname, Option.map_some, Option.bind_some,
      Option.toList_some, List.singleton_append, ownMembers, typedMember]

/-- The members of the instances of a class around one of its public fields. -/
theorem classMembers_field (value : ClassDef) (before after : List ClassMember) (start : Position)
    {modifiers : Source.Modifiers} (hown : modifiers.isStatic = false)
    (hpublic : modifiers.isPublic = true) (decorators : List Source.Decorator) (key : Source.Key)
    (type : TypeUse) (init : Option Source.Expr) :
    classMembers w e scope
        { value with
          members := before ++ .field start modifiers decorators key (some type) init :: after } =
      classMembers w e scope { value with members := before } ++
        (key.name?.map fun name =>
          typedMember w e scope name modifiers.optional start type.type).toList ++
        classMembers w e scope { value with members := after } := by
  simp only [classMembers, classFields, List.filterMap_append, List.filterMap_cons, List.map_append,
    List.append_assoc]
  congr 1
  have hfield : ClassField.ofMember? (.field start modifiers decorators key (some type) init) =
      key.name?.map fun name => ⟨name, some type.type, modifiers.optional, start⟩ := by
    rw [ClassField.ofMember?, hown, hpublic]
    rfl
  rw [hfield]
  cases key.name? <;> rfl

/-- A member is no event without a callback or if its name marks none. -/
theorem callbackEvent?_eq_none_iff {m : ShapeMember} :
    Surface.callbackEvent? w m = none ↔
      w.conventions.eventPart? m.name = none ∨ m.callback = none := by
  rw [Surface.callbackEvent?]
  cases w.conventions.eventPart? m.name with
  | none => simp
  | some part => cases m.callback <;> simp

/-- Of two types with the same schema, the first without a callback, a member is read alike exactly
    if its name marks no event or the second has no callback either. -/
theorem readAlike_typedMember_iff (s : Surface) {name : String} {optional : Bool}
    {anchor : Position} {qualified plain : TypeExpr} (hnone : callbackOf? w e scope qualified = none)
    (hschema : w.schemaIn scope qualified = w.schemaIn scope plain) :
    ReadAlike w s [typedMember w e scope name optional anchor qualified]
        [typedMember w e scope name optional anchor plain] ↔
      w.conventions.eventPart? name = none ∨ callbackOf? w e scope plain = none := by
  have hqualified : Surface.callbackEvent? w (typedMember w e scope name optional anchor qualified) =
      none := callbackEvent?_eq_none_iff.mpr (Or.inr hnone)
  constructor
  · rintro ⟨-, hevents⟩
    rw [List.filterMap_cons, List.filterMap_cons, hqualified] at hevents
    -- The qualified spelling declares no event, so the plain one must declare none.
    refine (callbackEvent?_eq_none_iff (m := typedMember w e scope name optional anchor plain)).mp ?_
    cases hplain : Surface.callbackEvent? w (typedMember w e scope name optional anchor plain) with
    | none => rfl
    | some event =>
        rw [hplain] at hevents
        cases hevents
  · intro h
    have hplain : Surface.callbackEvent? w (typedMember w e scope name optional anchor plain) =
        none := callbackEvent?_eq_none_iff.mpr h
    have hevent : ∀ type, callbackOf? w e scope type = none ∨ w.conventions.eventPart? name = none →
        Surface.isEventMember w.conventions (typedMember w e scope name optional anchor type) =
          false := by
      rintro type (hcallback | hpart)
      · rw [Surface.isEventMember, typedMember, hcallback]
        rfl
      · rw [Surface.isEventMember, typedMember, hpart]
        exact Bool.and_false _
    have hproperty :
        Surface.shapeProperty? w s (typedMember w e scope name optional anchor qualified) =
          Surface.shapeProperty? w s (typedMember w e scope name optional anchor plain) := by
      rw [Surface.shapeProperty?, Surface.shapeProperty?, hevent qualified (Or.inl hnone),
        hevent plain h.symm]
      simp only [typedMember, Option.map_some, hschema]
      rfl
    constructor
    · rw [List.filterMap_cons, List.filterMap_cons, hproperty]
    · rw [List.filterMap_cons, List.filterMap_cons, hqualified, hplain]

/-- The member of a name that may be missing is read alike exactly if the name marks no event or the
    second type has no callback. -/
theorem readAlike_named_iff (s : Surface) {name : Option String} {optional : Bool}
    {anchor : Position} {qualified plain : TypeExpr} (hnone : callbackOf? w e scope qualified = none)
    (hschema : w.schemaIn scope qualified = w.schemaIn scope plain) :
    ReadAlike w s
        (name.map fun name => typedMember w e scope name optional anchor qualified).toList
        (name.map fun name => typedMember w e scope name optional anchor plain).toList ↔
      name.bind w.conventions.eventPart? = none ∨ callbackOf? w e scope plain = none := by
  cases name with
  | none => exact ⟨fun _ => Or.inl rfl, fun _ => ⟨rfl, rfl⟩⟩
  | some name => exact readAlike_typedMember_iff s hnone hschema

end Members

section Handlers

variable {w : Workspace} {scope : Scope} {name : String}

/-- A type from outside the program is a callback if it has the name of a handler. -/
theorem referencedCallback?_outside (e : Expander) (args : List TypeExpr)
    (hplain : name ≠ "Function") (hbound : Dictionary.find? scope.bindings name = none)
    (htype : w.type? scope.file name = none) :
    referencedCallback? w e scope name args =
      if isHandlerName name then some ⟨args.head?, scope⟩ else none := by
  rw [referencedCallback?, if_neg hplain, hbound, htype]
  rfl

/-- An alias that is not open is the callback that its body is. -/
theorem referencedCallback?_alias {opened : List DeclarationKey} (args : List TypeExpr)
    (hplain : name ≠ "Function") (hbound : Dictionary.find? scope.bindings name = none)
    {d : Declaration} (htype : w.type? scope.file name = some d) {decl : Source.AliasDecl}
    (hnode : d.node = .aliasNode decl) (hopen : d.key ∉ opened) :
    let inside := expanderWithin w (w.typeCount + 1) (d.key :: opened)
    referencedCallback? w (expanderWithin w (w.typeCount + 1) opened) scope name args =
      callbackOf? w inside
        (bindParams w inside.schema decl.params (schemasOf w inside.schema scope args)
          (.ofFile d.file)) decl.type.type := by
  intro inside
  have hexpand := (Workspace.expander_hands_down_path (Workspace.resolve?_declares htype) opened).2.2
  rw [referencedCallback?, if_neg hplain, hbound, htype]
  dsimp only [Option.isSome_none]
  rw [if_neg Bool.false_ne_true, hnode]
  refine (hexpand args scope).trans ?_
  rw [if_neg (by simpa using hopen), aliasCallback?, hnode]

end Handlers

/-- **Handlers by namespace**: for a handler `H` that a file imports both by its name and in a
    namespace, a property of an object type or a public field of a class declares the same with the
    type `ns.H<A>` as with `H<A>` exactly if its name marks no event or `H<A>` is no callback.  But a
    type from outside the program is a callback if it has the name of a handler, with its first
    argument as the payload, and an alias is whatever callback its body is. -/
theorem namespace_handlers_read_alike_iff (w : Workspace) (s : Surface)
    (opened : List DeclarationKey) (scope : Scope) (outer name : String) (args : List TypeExpr)
    (found : Option Declaration) (himports : w.ImportsBoth scope.file outer name found)
    (hbound : Dictionary.find? scope.bindings name = none) (hknown : wellKnown? name = none)
    (henum : enumMembers? (w.type? scope.file outer) = none) (qualified plain : TypeExpr)
    (h : Respelled outer name args qualified plain) :
    let e := expanderWithin w (w.typeCount + 1) opened
    let handler := referencedCallback? w e scope name args
    (∀ (before after : List TypeMember) (start : Position) (key : MemberKey) (optional : Bool),
      ReadAlike w s
          (ownMembers w e scope (before ++ .property start key optional (some qualified) :: after))
          (ownMembers w e scope (before ++ .property start key optional (some plain) :: after)) ↔
        key.name?.bind w.conventions.eventPart? = none ∨ handler = none) ∧
    (∀ (value : ClassDef) (before after : List ClassMember) (start : Position)
      (modifiers : Source.Modifiers) (decorators : List Source.Decorator) (key : Source.Key)
      (inner : List Source.Pattern) (init : Option Source.Expr),
      modifiers.isStatic = false → modifiers.isPublic = true →
        let withType (type : TypeExpr) : ClassDef :=
          { value with
            members :=
              before ++ .field start modifiers decorators key (some ⟨type, inner⟩) init :: after }
        ReadAlike w s (classMembers w e scope (withType qualified))
            (classMembers w e scope (withType plain)) ↔
          key.name?.bind w.conventions.eventPart? = none ∨ handler = none) ∧
    (found = none → handler = if isHandlerName name then some ⟨args.head?, scope⟩ else none) ∧
    ∀ (d : Declaration) (decl : Source.AliasDecl), found = some d → d.node = .aliasNode decl →
      d.key ∉ opened →
        let inside := expanderWithin w (w.typeCount + 1) (d.key :: opened)
        handler = callbackOf? w inside
          (bindParams w inside.schema decl.params (schemasOf w inside.schema scope args)
            (.ofFile d.file)) decl.type.type := by
  intro e handler
  obtain ⟨hnone, hhandler⟩ := h.callback w e scope
  have hschema : w.schemaIn scope qualified = w.schemaIn scope plain :=
    h.same_schema w.expander.schema himports hbound hknown henum
  have hplain : name ≠ "Function" := by
    rintro rfl
    cases hknown
  refine ⟨fun before after start key optional => ?_,
    fun value before after start modifiers decorators key inner init hown hpublic => ?_,
    fun hfound => ?_, fun d decl hfound hnode hopen => ?_⟩
  · rw [ownMembers_property, ownMembers_property, readAlike_append,
      readAlike_named_iff s hnone hschema, hhandler]
  · dsimp only
    rw [classMembers_field value before after start hown hpublic,
      classMembers_field value before after start hown hpublic, readAlike_append,
      readAlike_named_iff s hnone hschema, hhandler]
  · exact referencedCallback?_outside e args hplain hbound (himports.type?_eq.trans hfound)
  · exact referencedCallback?_alias args hplain hbound (himports.type?_eq.trans hfound) hnode hopen

/-! ## A handler from outside -/

/-- A module that imports a handler by its name and in a namespace. -/
def buttonModule : ParsedFile :=
  { path := ⟨[.root, .name "button.ts"]⟩
    module :=
      ⟨[ .importFrom [⟨"MouseEventHandler", "MouseEventHandler"⟩] ⟨"react", true⟩ none,
         .importFrom [⟨"React", "*"⟩] ⟨"react", true⟩ none ], []⟩
    discoverable := true }

/-- The file of that module. -/
def buttonFile : SourceFile :=
  Program.placed ⟨[.root]⟩ buttonModule 0

/-- The workspace of that file alone. -/
def buttonWorkspace : Workspace :=
  .ofProgram (.ofParsed ⟨[.root]⟩ [buttonModule]) {}

/-- The property `onClick: H` for a type `H`. -/
def onClick (type : TypeExpr) : TypeMember :=
  .property ⟨80, 3⟩ (.ident "onClick" false) false (some type)

/-- The symbols of that file. -/
theorem button_symbols :
    buttonWorkspace.symbolsOf buttonFile = FileSymbols.ofFile buttonFile :=
  Workspace.symbolsOf_placed _ _ _

/-- The module `react` is outside the program. -/
theorem button_imports :
    buttonWorkspace.ImportsBoth buttonFile "React" "MouseEventHandler" none := by
  have hreact : Path.isRelativeSpecifier "react" = false := by decide +kernel
  refine .outside ⟨?_, "react", ?_, ?_, Workspace.moduleFile?_of_not_relative hreact,
    Workspace.unexported?_of_not_relative hreact⟩
  all_goals
    rw [button_symbols]
    rfl

/-- A member `onClick: React.MouseEventHandler<string>` is not read like
    `onClick: MouseEventHandler<string>`, whose payload is the argument. -/
theorem outside_handler_not_alike :
    ¬ReadAlike buttonWorkspace (.bare "Button" buttonFile {})
        (ownMembers buttonWorkspace buttonWorkspace.expander (.ofFile buttonFile)
          [onClick (.reference (.qualified (.ident "React") "MouseEventHandler")
            [.keyword .string])])
        (ownMembers buttonWorkspace buttonWorkspace.expander (.ofFile buttonFile)
          [onClick (.reference (.ident "MouseEventHandler") [.keyword .string])]) ∧
      referencedCallback? buttonWorkspace buttonWorkspace.expander (.ofFile buttonFile)
          "MouseEventHandler" [.keyword .string] =
        some ⟨some (.keyword .string), .ofFile buttonFile⟩ := by
  have henum : enumMembers? (buttonWorkspace.type? buttonFile "React") = none := by
    have hreact : Path.isRelativeSpecifier "react" = false := by decide +kernel
    have htype : buttonWorkspace.type? buttonFile "React" = none := by
      rw [Workspace.type?, Workspace.resolve?, button_symbols]
      show buttonWorkspace.imported? .type buttonFile ⟨"React", "*", "react"⟩ = none
      rw [Workspace.imported?, Workspace.moduleFile?_of_not_relative hreact]
      rfl
    rw [htype]
    rfl
  obtain ⟨hmembers, -, houtside, -⟩ := namespace_handlers_read_alike_iff buttonWorkspace
    (.bare "Button" buttonFile {}) [] (.ofFile buttonFile) "React" "MouseEventHandler"
    [.keyword .string] none button_imports rfl rfl henum _ _ .reference
  have hhandler := houtside rfl
  have hname : isHandlerName "MouseEventHandler" = true := by decide +kernel
  rw [if_pos hname] at hhandler
  refine ⟨fun halike => ?_, hhandler⟩
  rcases (hmembers [] [] ⟨80, 3⟩ (.ident "onClick" false) false).mp halike with hpart | hnone
  · have hclick : buttonWorkspace.conventions.eventPart? "onClick" = some "Click" := by
      decide +kernel
    rw [show (MemberKey.ident "onClick" false).name?.bind buttonWorkspace.conventions.eventPart? =
      buttonWorkspace.conventions.eventPart? "onClick" from rfl, hclick] at hpart
    cases hpart
  · rw [hhandler] at hnone
    cases hnone

end Types

end ElementCatalog
