import ElementCatalog.Proofs.ExportSearch
import ElementCatalog.Proofs.SpecifierTargets

/-!
# Renumbering — the same files at other places

The id of a file is its place in the program, and it is what symbols are found by and declarations
are told apart by.  Toward: names mean the same declarations, but for the ids of their files, in two
programs of which one holds the files of the other at other places and holds no further file that
these could mean.  The route:

* the symbols of a renumbered file are the renumbered symbols of the file;
* so the exports of a file lead the same ways, and the search for an exported name, which ends in
  one way only, ends with the same declaration.
-/

namespace ElementCatalog

/-- The specifier of the module that an export is from. -/
def Export.specifier? : Export → Option String
  | .ownName _ _ => none
  | .fromModule _ _ specifier => some specifier
  | .allOf specifier => some specifier

/-! ## Renumbered symbols -/

namespace Dictionary

variable {α β : Type}

/-- Values that are changed one by one are found changed. -/
theorem find?_map (f : α → β) (entries : Dictionary α) (name : String) :
    find? (entries.map (Prod.map id f)) name = (find? entries name).map f := by
  induction entries with
  | nil => rfl
  | cons entry rest ih =>
      obtain ⟨n, v⟩ := entry
      rw [List.map_cons, Prod.map_apply, find?, find?]
      by_cases h : n = name
      · rw [if_pos h, id_eq, if_pos h]
        rfl
      · rw [if_neg h, id_eq, if_neg h]
        exact ih

/-- Changing values one by one goes along with writing. -/
theorem set_map (f : α → β) (entries : Dictionary α) (name : String) (value : α) :
    set (entries.map (Prod.map id f)) name (f value) =
      (set entries name value).map (Prod.map id f) := by
  induction entries with
  | nil => rfl
  | cons entry rest ih =>
      obtain ⟨n, v⟩ := entry
      rw [List.map_cons, Prod.map_apply, set, set]
      by_cases h : n = name
      · rw [if_pos h, id_eq, if_pos h]
        rfl
      · rw [if_neg h, id_eq, if_neg h, List.map_cons, ih]
        rfl

end Dictionary

/-- A file under another id. -/
def SourceFile.renumber (ρ : Nat → Nat) (file : SourceFile) : SourceFile :=
  { file with id := ρ file.id }

/-- Registrations are searched for in a file under every id. -/
@[simp]
theorem SourceFile.renumber_discoverable (ρ : Nat → Nat) (file : SourceFile) :
    (file.renumber ρ).discoverable = file.discoverable :=
  rfl

/-- A declaration whose file has another id. -/
def Declaration.renumber (ρ : Nat → Nat) (d : Declaration) : Declaration :=
  { d with file := d.file.renumber ρ }

namespace FileSymbols

variable (ρ : Nat → Nat)

/-- Symbols whose declarations stand in a file with another id. -/
def renumber (symbols : FileSymbols) : FileSymbols :=
  { symbols with
    values := symbols.values.map (Prod.map id (·.renumber ρ))
    types := symbols.types.map (Prod.map id (·.renumber ρ)) }

/-- Declarations are found renumbered. -/
theorem declared?_renumber (symbols : FileSymbols) (space : NameSpace) (name : String) :
    (symbols.renumber ρ).declared? space name =
      (symbols.declared? space name).map (·.renumber ρ) := by
  cases space
  · exact Dictionary.find?_map _ symbols.values name
  · exact Dictionary.find?_map _ symbols.types name

/-- What an item of a renumbered file declares. -/
theorem declarationsOf_renumber (file : SourceFile) (outer : List Source.Position)
    (item : Source.Stmt) : declarationsOf (file.renumber ρ) outer item =
      (declarationsOf file outer item).map (·.renumber ρ) := by
  cases item with
  | variableDecl start declarators =>
      rw [declarationsOf, declarationsOf, List.map_filterMap]
      refine List.filterMap_congr fun declarator _ => ?_
      cases declarator.target <;> rfl
  | _ => rfl

/-- Inserting goes along with renumbering. -/
theorem insert_renumber (symbols : FileSymbols) (d : Declaration) :
    (symbols.renumber ρ).insert (d.renumber ρ) = (symbols.insert d).renumber ρ := by
  have hwrite : ∀ (space : NameSpace) (entries : Dictionary Declaration),
      (if (d.renumber ρ).node.livesIn space then
          Dictionary.set (entries.map (Prod.map id (·.renumber ρ))) (d.renumber ρ).name
            (d.renumber ρ)
        else entries.map (Prod.map id (·.renumber ρ))) =
      (if d.node.livesIn space then Dictionary.set entries d.name d else entries).map
        (Prod.map id (·.renumber ρ)) := by
    intro space entries
    show (if d.node.livesIn space then _ else _) = _
    split
    · exact Dictionary.set_map (·.renumber ρ) entries d.name d
    · rfl
  rw [insert, insert, renumber, renumber]
  simp only [hwrite]

/-- Exporting goes along with renumbering. -/
theorem exporting_renumber (symbols : FileSymbols) (exports : List Export) :
    (symbols.renumber ρ).exporting exports = (symbols.exporting exports).renumber ρ :=
  rfl

/-- Adding a default export goes along with renumbering. -/
theorem addDefault_renumber (symbols : FileSymbols) (d : Declaration) :
    (symbols.renumber ρ).addDefault (d.renumber ρ) = (symbols.addDefault d).renumber ρ :=
  insert_renumber ρ (symbols.exporting [.ownName "default" d.name]) d

/-- Adding an item goes along with renumbering. -/
theorem add_renumber (file : SourceFile) (symbols : FileSymbols) (item : Source.Stmt) :
    add (file.renumber ρ) (symbols.renumber ρ) item = (add file symbols item).renumber ρ := by
  have hinsert : ∀ outer item,
      (declarationsOf (file.renumber ρ) outer item).foldl insert (symbols.renumber ρ) =
        ((declarationsOf file outer item).foldl insert symbols).renumber ρ := by
    intro outer item
    rw [declarationsOf_renumber, List.foldl_map]
    exact List.foldl_hom (renumber ρ) (insert_renumber ρ)
  cases item with
  | importFrom specifiers source attributes =>
      rw [add, add]
      cases source.value? <;> rfl
  | exported start decl =>
      rw [add, add, declarationsOf_renumber, List.foldl_map]
      refine List.foldl_hom (renumber ρ) fun symbols d => ?_
      rw [exporting_renumber]
      exact insert_renumber ρ _ d
  | exportClass start name value =>
      exact addDefault_renumber ρ symbols
        ⟨name.getD "default", file, .classNode value, classAnchors [start] value, start⟩
  | exportFunction start name value =>
      exact addDefault_renumber ρ symbols
        ⟨name.getD "default", file, .functionNode value, [start], start⟩
  | exportInterface start value =>
      exact addDefault_renumber ρ symbols
        ⟨value.name, file, .interfaceNode value, [start], start⟩
  | exportValue start value =>
      cases value with
      | ident name => rfl
      | _ =>
          exact addDefault_renumber ρ symbols
            ⟨"default", file, .variableNode (some _) none, [start], start⟩
  | exportNames specifiers source attributes => rfl
  | exportAll source attributes =>
      rw [add, add]
      cases source.value? <;> rfl
  | _ => exact hinsert _ _

/-- The symbols of a renumbered file are the renumbered symbols of the file. -/
theorem ofFile_renumber (file : SourceFile) :
    ofFile (file.renumber ρ) = (ofFile file).renumber ρ := by
  show file.module.items.foldl (add (file.renumber ρ)) (renumber ρ {}) = _
  exact List.foldl_hom (renumber ρ) (add_renumber ρ file)

/-- The specifiers that the imports and exports of a file name. -/
def linkedSpecifiers (symbols : FileSymbols) : List String :=
  symbols.imports.map (·.specifier) ++ symbols.exports.filterMap Export.specifier?

/-- An import links its specifier. -/
theorem specifier_mem_of_import? {symbols : FileSymbols} {localName : String} {i : Import}
    (h : symbols.import? localName = some i) : i.specifier ∈ symbols.linkedSpecifiers :=
  List.mem_append_left _ (List.mem_map.mpr ⟨i, List.mem_of_find?_eq_some h, rfl⟩)

/-- An export from another module links its specifier. -/
theorem specifier_mem_of_fromModule {symbols : FileSymbols} {exported inner specifier : String}
    (h : .fromModule exported inner specifier ∈ symbols.exports) :
    specifier ∈ symbols.linkedSpecifiers :=
  List.mem_append_right _ (List.mem_filterMap.mpr ⟨_, h, rfl⟩)

/-- An export of everything links its specifier. -/
theorem specifier_mem_of_allOf {symbols : FileSymbols} {specifier : String}
    (h : .allOf specifier ∈ symbols.exports) : specifier ∈ symbols.linkedSpecifiers :=
  List.mem_append_right _ (List.mem_filterMap.mpr ⟨_, h, rfl⟩)

end FileSymbols

/-! ## Renumbered programs -/

namespace Workspace

/-- A workspace holds the files of another one under new ids, and beside them no file that one of
    their specifiers may mean. -/
structure Renumbers (ρ : Nat → Nat) (w w' : Workspace) : Prop where
  conventions : w'.conventions = w.conventions
  injective : Function.Injective ρ
  files : ∀ place : Nat,
    w'.program.files[ρ place]? = w.program.files[place]?.map (·.renumber ρ)
  candidates : ∀ file ∈ w.program.files, ∀ specifier ∈ (w.symbolsOf file).linkedSpecifiers,
    ∀ path ∈ Path.fallbackCandidates file.path specifier,
      w'.program.file? path = (w.program.file? path).map (·.renumber ρ)

/-- Where an export leads in renumbered files. -/
def ExportStep.renumber (ρ : Nat → Nat) : ExportStep → ExportStep
  | .declared d => .declared (d.renumber ρ)
  | .lookIn file exported => .lookIn (file.renumber ρ) exported

namespace Renumbers

variable {ρ : Nat → Nat} {w w' : Workspace} {space : NameSpace} {file : SourceFile}

/-- The symbols of a file are those of its copy under the new id. -/
theorem symbolsOf (h : Renumbers ρ w w') (file : SourceFile) :
    w'.symbolsOf (file.renumber ρ) = (w.symbolsOf file).renumber ρ := by
  have hplace : w'.program.files[(file.renumber ρ).id]? =
      w.program.files[file.id]?.map (·.renumber ρ) := h.files file.id
  rw [Workspace.symbolsOf, Workspace.symbolsOf, w.symbols_eq, w'.symbols_eq,
    List.getElem?_toArray, List.getElem?_toArray, List.getElem?_map, List.getElem?_map, hplace]
  cases w.program.files[file.id]? with
  | none => rfl
  | some found => exact FileSymbols.ofFile_renumber ρ found

/-- The files are in the program under their new ids. -/
theorem mem_files (h : Renumbers ρ w w') (hfile : file ∈ w.program.files) :
    file.renumber ρ ∈ w'.program.files := by
  obtain ⟨place, hplace⟩ := List.mem_iff_getElem?.mp hfile
  refine List.mem_iff_getElem?.mpr ⟨ρ place, ?_⟩
  rw [h.files, hplace, Option.map_some]

/-- What is looked for in the files that a specifier may mean is found where it was. -/
theorem findSome?_candidates (h : Renumbers ρ w w') (hfile : file ∈ w.program.files)
    {specifier : String} (hspecifier : specifier ∈ (w.symbolsOf file).linkedSpecifiers)
    {paths : List Path} (hpaths : paths ⊆ Path.fallbackCandidates file.path specifier)
    {α : Type} (look look' : SourceFile → Option α) (change : α → α)
    (hlook : ∀ target, look' (target.renumber ρ) = (look target).map change) :
    paths.findSome? (fun path => (w'.program.file? path).bind look') =
      (paths.findSome? fun path => (w.program.file? path).bind look).map change := by
  induction paths with
  | nil => rfl
  | cons path rest ih =>
      obtain ⟨hpath, hrest⟩ := List.cons_subset.mp hpaths
      rw [List.findSome?_cons, List.findSome?_cons,
        h.candidates file hfile specifier hspecifier path hpath, ih hrest]
      cases w.program.file? path with
      | none => rfl
      | some target =>
          rw [Option.map_some, Option.bind_some, Option.bind_some, hlook target]
          cases look target <;> rfl

/-- A specifier means the file that it meant. -/
theorem moduleFile? (h : Renumbers ρ w w') (hfile : file ∈ w.program.files) {specifier : String}
    (hspecifier : specifier ∈ (w.symbolsOf file).linkedSpecifiers) :
    w'.moduleFile? (file.renumber ρ) specifier =
      (w.moduleFile? file specifier).map (·.renumber ρ) := by
  have hsubset : Path.moduleCandidates file.path specifier ⊆
      Path.fallbackCandidates file.path specifier := by
    obtain ⟨sources, hcandidates, -⟩ := Path.fallbackCandidates_eq file.path specifier
    rw [hcandidates]
    exact List.subset_append_left _ _
  have hfind := h.findSome?_candidates hfile hspecifier hsubset some some
    (SourceFile.renumber ρ) fun _ => rfl
  simp only [Option.bind_fun_some] at hfind
  exact hfind

/-! ### Exports -/

/-- An export leads on to what it led to. -/
theorem namedStep? (h : Renumbers ρ w w') (hfile : file ∈ w.program.files) {exported : String}
    {e : Export} (he : e ∈ (w.symbolsOf file).exports) :
    w'.namedStep? space (file.renumber ρ) exported e =
      (w.namedStep? space file exported e).map (·.renumber ρ) := by
  cases e with
  | ownName outer localName =>
      rw [Workspace.namedStep?, Workspace.namedStep?, h.symbolsOf]
      split
      · rw [FileSymbols.declared?_renumber]
        cases (w.symbolsOf file).declared? space localName with
        | some d => rfl
        | none =>
            show ((w.symbolsOf file).import? localName).bind _ = _
            cases hi : (w.symbolsOf file).import? localName with
            | none => rfl
            | some i =>
                have hspecifier := FileSymbols.specifier_mem_of_import? hi
                dsimp only [Option.bind_some]
                rw [h.moduleFile? hfile hspecifier]
                cases w.moduleFile? file i.specifier <;> rfl
      · rfl
  | fromModule outer imported specifier =>
      have hspecifier := FileSymbols.specifier_mem_of_fromModule he
      rw [Workspace.namedStep?, Workspace.namedStep?, h.moduleFile? hfile hspecifier]
      split
      · cases w.moduleFile? file specifier <;> rfl
      · rfl
  | allOf specifier => rfl

/-- An export of everything leads on to what it led to. -/
theorem handedOnStep? (h : Renumbers ρ w w') (hfile : file ∈ w.program.files) {exported : String}
    {e : Export} (he : e ∈ (w.symbolsOf file).exports) :
    w'.handedOnStep? (file.renumber ρ) exported e =
      (w.handedOnStep? file exported e).map (·.renumber ρ) := by
  cases e with
  | allOf specifier =>
      have hspecifier := FileSymbols.specifier_mem_of_allOf he
      rw [Workspace.handedOnStep?, Workspace.handedOnStep?, h.moduleFile? hfile hspecifier]
      split
      · rfl
      · cases w.moduleFile? file specifier <;> rfl
  | ownName outer localName => rfl
  | fromModule outer imported specifier => rfl

/-- The exports of a file lead the same ways. -/
theorem exportSteps (h : Renumbers ρ w w') (hfile : file ∈ w.program.files) (exported : String) :
    w'.exportSteps space (file.renumber ρ) exported =
      (w.exportSteps space file exported).map (·.renumber ρ) := by
  rw [Workspace.exportSteps, Workspace.exportSteps, List.map_append, List.map_filterMap,
    List.map_filterMap, h.symbolsOf]
  show (w.symbolsOf file).exports.filterMap _ ++ (w.symbolsOf file).exports.filterMap _ = _
  rw [List.filterMap_congr fun e he => h.namedStep? hfile he,
    List.filterMap_congr fun e he => h.handedOnStep? hfile he]

/-- A search goes the same way. -/
theorem searches (h : Renumbers ρ w w') {visited : List Place} {pending : List ExportStep}
    {result : Option Declaration} (hsearch : Searches w space visited pending result)
    (hfiles : PendingFiles w pending) :
    Searches w' space (visited.map (Prod.map ρ id)) (pending.map (·.renumber ρ))
      (result.map (·.renumber ρ)) := by
  induction hsearch with
  | exhausted => exact .exhausted
  | found => exact .found
  | skipped hvisited _ ih =>
      refine .skipped (List.mem_map_of_mem (f := Prod.map ρ id) hvisited) (ih ?_)
      exact fun f n hmem => hfiles f n (List.mem_cons_of_mem _ hmem)
  | @opened visited pending file exported result hnew _ ih =>
      have hfile : file ∈ w.program.files := hfiles file exported List.mem_cons_self
      -- Different places stay different, so a new place is new under the new ids, too.
      have hrest := ih hfiles.opened
      rw [List.map_append, ← h.exportSteps hfile] at hrest
      refine .opened (fun hmem => hnew ?_) hrest
      have hplaces := h.injective.prodMap (Function.injective_id (α := String))
      exact (List.mem_map_of_injective hplaces (a := (file.id, exported))).mp hmem

/-- A file exports what it exported. -/
theorem exported? (h : Renumbers ρ w w') (hfile : file ∈ w.program.files) (name : String) :
    w'.exported? space (file.renumber ρ) name =
      (w.exported? space file name).map (·.renumber ρ) := by
  have hfiles : PendingFiles w [.lookIn file name] := by
    intro f n hmem
    cases List.mem_singleton.mp hmem
    exact hfile
  exact (searches_exported? (h.mem_files hfile) name).unique
    (h.searches (searches_exported? hfile name) hfiles)

/-! ### Names -/

/-- An import names the declaration that it named, also one that is not exported. -/
theorem unexported? (h : Renumbers ρ w w') (hfile : file ∈ w.program.files) {i : Import}
    (hi : i.specifier ∈ (w.symbolsOf file).linkedSpecifiers) :
    w'.unexported? space (file.renumber ρ) i =
      (w.unexported? space file i).map (·.renumber ρ) := by
  rw [Workspace.unexported?, Workspace.unexported?]
  split
  · rfl
  · refine h.findSome?_candidates hfile hi (fun _ hp => hp) _ _ (Declaration.renumber ρ)
      fun target => ?_
    rw [h.symbolsOf]
    exact FileSymbols.declared?_renumber ρ _ space _

/-- An import brings in what it brought in. -/
theorem imported? (h : Renumbers ρ w w') (hfile : file ∈ w.program.files) {i : Import}
    (hi : i.specifier ∈ (w.symbolsOf file).linkedSpecifiers) :
    w'.imported? space (file.renumber ρ) i = (w.imported? space file i).map (·.renumber ρ) := by
  rw [Workspace.imported?, Workspace.imported?, h.unexported? hfile hi, h.moduleFile? hfile hi,
    Option.map_or]
  congr 1
  cases htarget : w.moduleFile? file i.specifier with
  | none => rfl
  | some target => exact h.exported? (moduleFile?_mem htarget) i.imported

/-- A name means the declaration that it meant. -/
theorem resolve? (h : Renumbers ρ w w') (hfile : file ∈ w.program.files) (name : String) :
    w'.resolve? space (file.renumber ρ) name =
      (w.resolve? space file name).map (·.renumber ρ) := by
  rw [Workspace.resolve?, Workspace.resolve?, h.symbolsOf, FileSymbols.declared?_renumber,
    Option.map_or]
  congr 1
  show ((w.symbolsOf file).import? name).bind _ = _
  cases hi : (w.symbolsOf file).import? name with
  | none => rfl
  | some i => exact h.imported? hfile (FileSymbols.specifier_mem_of_import? hi)

/-- A qualified name means the type that it meant. -/
theorem qualifiedType? (h : Renumbers ρ w w') (hfile : file ∈ w.program.files)
    (outer name : String) :
    w'.qualifiedType? (file.renumber ρ) outer name =
      (w.qualifiedType? file outer name).map (·.renumber ρ) := by
  rw [Workspace.qualifiedType?, Workspace.qualifiedType?, h.symbolsOf]
  show ((w.symbolsOf file).import? outer).bind _ = (((w.symbolsOf file).import? outer).bind _).map _
  cases hi : (w.symbolsOf file).import? outer with
  | none => rfl
  | some i =>
      rw [Option.bind_some, Option.bind_some,
        h.moduleFile? hfile (FileSymbols.specifier_mem_of_import? hi)]
      cases i.imported == "*" with
      | false => rfl
      | true =>
          cases htarget : w.moduleFile? file i.specifier with
          | none => rfl
          | some target => exact h.exported? (moduleFile?_mem htarget) name

end Renumbers

end Workspace

end ElementCatalog
