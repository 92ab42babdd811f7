import ElementCatalog.Proofs.DeclarationReadings

/-!
# Repeated declarations — what is left of them

A name may be declared several times in a file: interfaces of one name, and a class with such
interfaces, stand for one type with the members of all of them.  The symbols of a file hold one
declaration for each name, and a later one replaces an earlier one.  Toward: exactly when nothing of
the earlier declarations is lost.  The route:

* the declarations of a file are a list in the order of its items, and the symbols hold the last one
  of each name (`declared?_ofFile_eq_getLast?`);
* so whichever way a name is looked up, from its own file, through imports or in a namespace, the
  last declaration is all that is found;
* the object and the shape of a reference have exactly the names that this declaration brings in.
-/

namespace ElementCatalog

open Source (TypeExpr Stmt EntityName InterfaceDecl ClassDef Heritage)
open ElementCatalog.Types

/-! ## The last declaration -/

/-- A declaration of a name in a world of names. -/
def Declaration.isNamed (space : NameSpace) (name : String) (d : Declaration) : Bool :=
  d.node.livesIn space && d.name == name

namespace FileSymbols

/-- The declarations of an item of a module. -/
def declaredBy (file : SourceFile) : Stmt → List Declaration
  | .exported start decl => declarationsOf file [start] decl
  | .exportClass start name value =>
    [⟨name.getD "default", file, .classNode value, classAnchors [start] value, start⟩]
  | .exportFunction start name value =>
    [⟨name.getD "default", file, .functionNode value, [start], start⟩]
  | .exportInterface start value => [⟨value.name, file, .interfaceNode value, [start], start⟩]
  | .exportValue _ (.ident _) => []
  | .exportValue start value =>
    [⟨"default", file, .variableNode (some value) none, [start], start⟩]
  | item => declarationsOf file [] item

/-- The declarations of a file, in the order in which they stand. -/
def declarations (file : SourceFile) : List Declaration :=
  file.module.items.flatMap (declaredBy file)

/-- The declarations of a name in a file. -/
def declarationsNamed (file : SourceFile) (space : NameSpace) (name : String) : List Declaration :=
  (declarations file).filter (·.isNamed space name)

section LastDeclaration

variable {space : NameSpace} {name : String}

/-- The last one of some declarations counts, and otherwise what was declared before. -/
def LastOf (space : NameSpace) (name : String) (ds : List Declaration)
    (before after : FileSymbols) : Prop :=
  after.declared? space name =
    (ds.filter (·.isNamed space name)).getLast?.or (before.declared? space name)

/-- Nothing is declared by what leaves the symbols of both worlds as they are. -/
theorem LastOf.nil {before after : FileSymbols}
    (h : after.declared? space name = before.declared? space name) :
    LastOf space name [] before after :=
  h

/-- A declaration that is inserted is the last one. -/
theorem LastOf.insert (symbols : FileSymbols) (d : Declaration) :
    LastOf space name [d] symbols (symbols.insert d) := by
  rw [LastOf, declared?_insert]
  by_cases h : d.node.livesIn space = true ∧ name = d.name
  · rw [if_pos h, List.filter_cons_of_pos (by simp [Declaration.isNamed, h.1, h.2])]
    rfl
  · have hnamed : ¬d.isNamed space name = true := by
      rw [Declaration.isNamed, Bool.and_eq_true, beq_iff_eq]
      exact fun hnamed => h ⟨hnamed.1, hnamed.2.symm⟩
    rw [if_neg h, List.filter_cons_of_neg hnamed]
    rfl

/-- Exports before a declaration declare nothing. -/
theorem LastOf.insert_exporting (symbols : FileSymbols) (exports : List Export) (d : Declaration) :
    LastOf space name [d] symbols ((symbols.exporting exports).insert d) := by
  have h : LastOf space name [d] (symbols.exporting exports) _ := .insert _ d
  rwa [LastOf, declared?_exporting] at h

/-- Steps that declare some things each declare all of them, one after another. -/
theorem LastOf.foldl {α : Type} {step : FileSymbols → α → FileSymbols}
    {declared : α → List Declaration}
    (hstep : ∀ symbols a, LastOf space name (declared a) symbols (step symbols a))
    (items : List α) : ∀ symbols : FileSymbols,
      LastOf space name (items.flatMap declared) symbols (items.foldl step symbols) := by
  induction items with
  | nil => exact fun _ => .nil rfl
  | cons a rest ih =>
      intro symbols
      have hrest := ih (step symbols a)
      rw [LastOf] at hrest ⊢
      rw [List.foldl_cons, hrest, hstep symbols a, List.flatMap_cons, List.filter_append,
        List.getLast?_append, Option.or_assoc]

/-- An item adds its declarations. -/
theorem LastOf.add (file : SourceFile) (symbols : FileSymbols) (item : Stmt) :
    LastOf space name (declaredBy file item) symbols (FileSymbols.add file symbols item) := by
  have hdeclarations : ∀ outer decl, LastOf space name (declarationsOf file outer decl) symbols
      ((declarationsOf file outer decl).foldl FileSymbols.insert symbols) := by
    intro outer decl
    have h : LastOf space name ((declarationsOf file outer decl).flatMap fun d => [d]) symbols _ :=
      LastOf.foldl LastOf.insert (declarationsOf file outer decl) symbols
    rwa [List.flatMap_singleton'] at h
  cases item with
  | exported start decl =>
      have h : LastOf space name ((declarationsOf file [start] decl).flatMap fun d => [d])
          symbols _ :=
        LastOf.foldl (fun symbols d => .insert_exporting symbols [.ownName d.name d.name] d)
          (declarationsOf file [start] decl) symbols
      rwa [List.flatMap_singleton'] at h
  | exportClass | exportFunction | exportInterface => exact .insert_exporting symbols _ _
  | exportValue start value =>
      cases value with
      | ident => exact .nil (declared?_exporting ..)
      | _ => exact .insert_exporting symbols _ _
  | importFrom specifiers source =>
      refine .nil ?_
      rw [FileSymbols.add]
      cases source.value? <;> cases space <;> rfl
  | exportNames => exact .nil (declared?_exporting ..)
  | exportAll source =>
      refine .nil ?_
      rw [FileSymbols.add]
      cases source.value? with
      | none => rfl
      | some specifier => exact declared?_exporting ..
  | _ => exact hdeclarations [] _

/-- The symbols of a file hold the last declaration of each name. -/
theorem declared?_ofFile_eq_getLast? (file : SourceFile) (space : NameSpace) (name : String) :
    (ofFile file).declared? space name = (declarationsNamed file space name).getLast? := by
  have h : LastOf space name (declarations file) {} (ofFile file) :=
    LastOf.foldl (LastOf.add file) file.module.items {}
  have hempty : declared? {} space name = none := by
    cases space <;> rfl
  rw [h, hempty, Option.or_none, declarationsNamed]

end LastDeclaration

end FileSymbols

open FileSymbols

/-- Whatever a workspace declares is the last declaration of its name in its file. -/
theorem Workspace.Declares.getLast? {w : Workspace} {space : NameSpace} {d : Declaration}
    (h : w.Declares space d) : (declarationsNamed d.file space d.name).getLast? = some d := by
  obtain ⟨source, name, hd⟩ := h
  rcases w.symbolsOf_eq_or_mem source with hempty | hmem
  · rw [hempty] at hd
    cases space <;> cases hd
  · rw [w.symbols_eq] at hmem
    obtain ⟨file, -, hsymbols⟩ := List.mem_map.mp hmem
    rw [← hsymbols] at hd
    have hfile : d.file = file := file_of_declared? hd
    rw [declared?_ofFile_eq_getLast?] at hd
    have hnamed := (List.mem_filter.mp (List.mem_of_getLast? hd)).2
    have hname : d.name = name := beq_iff_eq.mp (Bool.and_eq_true_iff.mp hnamed).2
    rw [hfile, hname]
    exact hd

/-! ## What a declaration brings in -/

namespace Declaration

/-- Several interfaces of one name, and a class with such interfaces, stand for one type. -/
inductive IsMergeable (d : Declaration) : Prop where
  | ofInterface {decl : InterfaceDecl} (h : d.node = .interfaceNode decl) : IsMergeable d
  | ofClass {value : ClassDef} (h : d.node = .classNode value) : IsMergeable d

/-- The uses of names by the members that a declaration writes itself. -/
def ownUses (d : Declaration) : List NameUse :=
  match d.node with
  | .interfaceNode decl => NameUse.ofMembers decl.members
  | .classNode value => NameUse.ofFields value
  | _ => []

/-- The clauses by which the type of a declaration inherits. -/
def parents (d : Declaration) : List Heritage :=
  match d.node with
  | .interfaceNode decl => decl.parents
  | _ => []

section Brings

variable (w : Workspace) (opened : List DeclarationKey) (args : List TypeExpr) (scope : Scope)

/-- A declaration brings a property into the object of its type: it writes it itself, or one of its
    clauses is read to an object that has it. -/
def BringsProperty (d : Declaration) (n : String) : Prop :=
  (∃ parent ∈ d.parents, ∃ object, clauseObject? w (w.expanderOn (d.key :: opened)).schema
    (w.innerScope opened d args scope) parent = some object ∧ n ∈ object.propertyNames) ∨
  ⟨n, false⟩ ∈ d.ownUses

/-- A declaration brings a member into the shape of its type: it writes it itself, or one of its
    clauses is read to a shape that has it. -/
def BringsMember (d : Declaration) (n : String) : Prop :=
  (∃ parent ∈ d.parents, n ∈ memberNames (clauseMembers w (w.expanderOn (d.key :: opened))
    (w.innerScope opened d args scope) parent)) ∨
  n ∈ d.ownUses.map (·.name)

end Brings

end Declaration

namespace Types

variable {w : Workspace} {e : Expander} {scope : Scope} {n : String}

/-- A shape has the names of its members' uses. -/
theorem memberNames_eq (shape : List ShapeMember) :
    memberNames shape = (shape.map ShapeMember.use).map (·.name) := by
  rw [memberNames, List.map_map]
  rfl

/-- The shape of an interface has the names that its clauses bring in and its own. -/
theorem mem_memberNames_interfaceMembers {decl : InterfaceDecl} :
    n ∈ memberNames (interfaceMembers w e scope decl) ↔
      (∃ parent ∈ decl.parents, n ∈ memberNames (clauseMembers w e scope parent)) ∨
        n ∈ (NameUse.ofMembers decl.members).map (·.name) := by
  rw [interfaceMembers_eq, List.foldl_append, List.foldl_cons, List.foldl_nil,
    mem_memberNames_mergeMembers, mem_memberNames_foldl,
    or_iff_right (a := n ∈ memberNames []) List.not_mem_nil, memberNames_eq (ownMembers ..),
    map_use_ownMembers]
  simp only [List.mem_map, exists_exists_and_eq_and]

end Types

namespace Workspace

variable {w : Workspace} {scope : Scope} {written : EntityName} {d : Declaration}
  {opened : List DeclarationKey}

/-- The object and the shape of a reference have the names that the declaration brings in. -/
theorem RefersTo.names_of_mergeable (h : w.RefersTo scope written d) (hclosed : d.key ∉ opened)
    (hmerge : d.IsMergeable) (args : List TypeExpr) :
    (∃ object,
      schemaOf w (w.expanderOn opened).schema scope (.reference written args) = .object object ∧
      ∀ n, n ∈ object.propertyNames ↔ d.BringsProperty w opened args scope n) ∧
    ∀ n, n ∈ memberNames (membersOf w (w.expanderOn opened) scope (.reference written args)) ↔
      d.BringsMember w opened args scope n := by
  obtain ⟨hschema, hmembers⟩ := reading_of_reference h hclosed args
  rw [hschema, hmembers]
  cases hmerge with
  | @ofInterface decl hnode =>
      obtain ⟨hobject, hshape⟩ := declaration_of_interface (w := w)
        (e := w.expanderOn (d.key :: opened)) hnode
        (schemasOf w (w.expanderOn opened).schema scope args)
      rw [hobject, hshape]
      refine ⟨⟨_, interfaceSchema_eq decl, fun n => ?_⟩, fun n => ?_⟩
      · rw [mem_names_interfaceObject, Declaration.BringsProperty, Declaration.parents,
          Declaration.ownUses, hnode]
        rfl
      · rw [mem_memberNames_interfaceMembers, Declaration.BringsMember, Declaration.parents,
          Declaration.ownUses, hnode]
        rfl
  | @ofClass value hnode =>
      obtain ⟨hobject, hshape⟩ := declaration_of_class (w := w)
        (e := w.expanderOn (d.key :: opened)) hnode
        (schemasOf w (w.expanderOn opened).schema scope args)
      rw [hobject, hshape]
      obtain ⟨object, hread, hnames⟩ := exists_classObject value
      refine ⟨⟨object, hread, fun n => ?_⟩, fun n => ?_⟩
      · rw [hnames, Declaration.BringsProperty, Declaration.parents, Declaration.ownUses, hnode]
        simp
      · rw [memberNames_eq, map_use_classMembers, Declaration.BringsMember, Declaration.parents,
          Declaration.ownUses, hnode]
        simp

/-- **Repeated declarations**: of several declarations of a name in a file the last one is all that
    any name refers to, and the object and the shape of the type have exactly the names that this
    one brings in. So nothing that another declaration brings in is lost exactly if the last one
    brings it in too. -/
theorem repeated_declarations_kept_iff (w : Workspace) (file : SourceFile)
    (hfile : file ∈ w.program.files) (name : String)
    (hdeclared : declarationsNamed file .type name ≠ [])
    (hmerge : ∀ d ∈ declarationsNamed file .type name, d.IsMergeable) :
    ∃ earlier last, declarationsNamed file .type name = earlier ++ [last] ∧
      (∀ scope : Scope, scope.file = file → Dictionary.find? scope.bindings name = none →
        wellKnown? name = none → w.RefersTo scope (.ident name) last) ∧
      (∀ scope written d, w.RefersTo scope written d → d.file = file → d.name = name → d = last) ∧
      ∀ scope written, w.RefersTo scope written last → ∀ opened, last.key ∉ opened → ∀ args,
        let shape := memberNames (membersOf w (w.expanderOn opened) scope (.reference written args))
        ∃ object,
          schemaOf w (w.expanderOn opened).schema scope (.reference written args) =
            .object object ∧
          (∀ n, n ∈ object.propertyNames ↔ last.BringsProperty w opened args scope n) ∧
          (∀ n, n ∈ shape ↔ last.BringsMember w opened args scope n) ∧
          ((∀ d ∈ declarationsNamed file .type name,
              (∀ n, d.BringsProperty w opened args scope n → n ∈ object.propertyNames) ∧
              ∀ n, d.BringsMember w opened args scope n → n ∈ shape) ↔
            ∀ d ∈ earlier,
              (∀ n, d.BringsProperty w opened args scope n →
                last.BringsProperty w opened args scope n) ∧
              ∀ n, d.BringsMember w opened args scope n →
                last.BringsMember w opened args scope n) := by
  obtain ⟨earlier, last, hlast⟩ := List.eq_nil_or_concat' _ |>.resolve_left hdeclared
  have hget : (declarationsNamed file .type name).getLast? = some last := by
    rw [hlast, List.getLast?_append]
    rfl
  refine ⟨earlier, last, hlast, ?_, ?_, ?_⟩
  · rintro scope rfl hunbound hplain
    refine .plain hunbound hplain ?_
    rw [type?, resolve?, symbolsOf_of_mem hfile, declared?_ofFile_eq_getLast?, hget, Option.some_or]
  · rintro scope written d hrefers rfl rfl
    exact Option.some.inj (hrefers.declares.getLast?.symm.trans hget)
  · intro scope written hrefers opened hclosed args shape
    have hmergeable : last.IsMergeable :=
      hmerge last (by rw [hlast]; exact List.mem_append_right _ List.mem_cons_self)
    obtain ⟨⟨object, hobject, hproperties⟩, hmembers⟩ :=
      hrefers.names_of_mergeable hclosed hmergeable args
    refine ⟨object, hobject, hproperties, hmembers, ?_⟩
    rw [hlast, List.forall_mem_append, List.forall_mem_singleton]
    simp only [shape, hproperties, hmembers]
    exact and_iff_left ⟨fun _ hn => hn, fun _ hn => hn⟩

/-! ## An interface that is written twice -/

/-- The first interface `Settings`, with a text and a method. -/
def themeInterface : InterfaceDecl :=
  { start := ⟨0, 1⟩
    name := "Settings"
    params := []
    parents := []
    members :=
      [ .property ⟨21, 1⟩ (.ident "theme" false) false (some (.keyword .string)),
        .method ⟨36, 1⟩ (.ident "reset" false) false none ]
    inner := [] }

/-- The second interface `Settings`, with a number. -/
def sizeInterface : InterfaceDecl :=
  { start := ⟨52, 2⟩
    name := "Settings"
    params := []
    parents := []
    members := [.property ⟨73, 2⟩ (.ident "size" false) false (some (.keyword .number))]
    inner := [] }

/-- A module that declares both, the second one after `export`. -/
def settingsModule : ParsedFile :=
  { path := ⟨[.root, .name "settings.ts"]⟩
    module := ⟨
      [ .interfaceDecl themeInterface,
        .exported ⟨45, 2⟩ (.interfaceDecl sizeInterface) ], []⟩
    discoverable := true }

/-- The file of that module. -/
def settingsFile : SourceFile :=
  Program.placed ⟨[.root]⟩ settingsModule 0

/-- The workspace of that file alone. -/
def settingsWorkspace : Workspace :=
  .ofProgram (.ofParsed ⟨[.root]⟩ [settingsModule]) {}

/-- The first declaration of `Settings`. -/
def themeDeclaration : Declaration :=
  ⟨"Settings", settingsFile, .interfaceNode themeInterface, [⟨0, 1⟩], ⟨0, 1⟩⟩

/-- The second declaration of `Settings`. -/
def sizeDeclaration : Declaration :=
  ⟨"Settings", settingsFile, .interfaceNode sizeInterface, [⟨45, 2⟩, ⟨52, 2⟩], ⟨52, 2⟩⟩

/-- Of the two interfaces the first one is lost, its property and its method. -/
theorem first_settings_lost :
    declarationsNamed settingsFile .type "Settings" = [themeDeclaration, sizeDeclaration] ∧
      themeDeclaration.IsMergeable ∧ sizeDeclaration.IsMergeable ∧
      ∃ object, settingsWorkspace.schemaIn (.ofFile settingsFile)
          (.reference (.ident "Settings") []) = .object object ∧
        "size" ∈ object.propertyNames ∧ "theme" ∉ object.propertyNames ∧
        "reset" ∉ memberNames (settingsWorkspace.membersIn (.ofFile settingsFile)
          (.reference (.ident "Settings") [])) := by
  have hnamed : declarationsNamed settingsFile .type "Settings" =
      [themeDeclaration] ++ [sizeDeclaration] := rfl
  have hmerge : ∀ d ∈ declarationsNamed settingsFile .type "Settings", d.IsMergeable := by
    rw [hnamed, List.forall_mem_append, List.forall_mem_singleton, List.forall_mem_singleton]
    exact ⟨.ofInterface rfl, .ofInterface rfl⟩
  have hfile : settingsFile ∈ settingsWorkspace.program.files := by
    simp [settingsWorkspace, ofProgram, Program.ofParsed, settingsFile]
  obtain ⟨earlier, last, hlast, hrefers, -, hreads⟩ := repeated_declarations_kept_iff
    settingsWorkspace settingsFile hfile "Settings" (by rw [hnamed]; exact List.cons_ne_nil _ _)
    hmerge
  obtain ⟨-, heq⟩ := List.append_inj' (hnamed.symm.trans hlast) rfl
  cases heq
  obtain ⟨object, hobject, hproperties, hmembers, -⟩ :=
    hreads _ _ (hrefers (.ofFile settingsFile) rfl rfl rfl) [] List.not_mem_nil []
  refine ⟨hnamed, .ofInterface rfl, .ofInterface rfl, object, hobject,
    (hproperties "size").mpr (Or.inr (by decide)), ?_, ?_⟩
  · rw [hproperties "theme"]
    rintro (⟨parent, hparent, -⟩ | htheme)
    · cases hparent
    · exact absurd htheme (by decide)
  · intro hreset
    rcases (hmembers "reset").mp hreset with ⟨parent, hparent, -⟩ | hreset
    · cases hparent
    · exact absurd hreset (by decide)

end Workspace

end ElementCatalog
