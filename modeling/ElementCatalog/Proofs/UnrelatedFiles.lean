import ElementCatalog.Component.Assembly
import ElementCatalog.Project.Loading
import ElementCatalog.Proofs.FileOrder
import ElementCatalog.Proofs.RenumberedComponents

/-!
# Unrelated files do not interfere

Toward: a source that registers nothing and that no specifier of a program may mean leaves the
catalog and the diagnostics as they are, wherever it stands among the sources, and the order of the
sources never matters.  The route:

* sorted by paths, the files stand as they stood, with one more file between them, so that every
  later file has the next id;
* what the files of the program link to is named by their imports and exports, so no name can lead
  to the new file, and the program is one that has been renumbered;
* a file in which nothing is registered adds neither registrations nor refusals.
-/

namespace ElementCatalog

open Source (Node ClassDef Stmt)

/-! ## Files that register nothing -/

namespace Registration

/-- A class has an element decorator. -/
def isElementClass (c : Conventions) (value : ClassDef) : Bool :=
  value.decorators.any fun d => d.name?.any c.isElementDecorator

/-- A node registers an element: a registering call, or a declaration of a class that has an element
    decorator. -/
def registers (c : Conventions) : Node → Bool
  | .expr (.call _ callee _ args) => isCall c callee args
  | .stmt (.classDecl _ value) => isElementClass c value
  | .stmt (.exportClass _ _ value) => isElementClass c value
  | _ => false

/-- Nothing in a module registers an element. -/
def Silent (c : Conventions) (m : Source.Module) : Prop :=
  ∀ n ∈ m.nodes, registers c n = false

instance (c : Conventions) (m : Source.Module) : Decidable (Silent c m) :=
  inferInstanceAs (Decidable (∀ n ∈ m.nodes, registers c n = false))

variable {c : Conventions}

/-- A class without an element decorator registers nothing. -/
theorem readClass_of_not_element {value : ClassDef} (h : isElementClass c value = false)
    (file : SourceFile) (found : Findings) (name : String) :
    readClass c file found name value = found := by
  have hnone : ∀ d ∈ value.decorators, ¬(d.name?.any c.isElementDecorator) = true :=
    List.any_eq_false.mp h
  have hread : ∀ found : Findings, ∀ d ∈ value.decorators,
      readDecorator c file name found d = found := by
    intro found d hd
    have hname := hnone d hd
    rw [readDecorator]
    split
    · rename_i hd _
      rw [hd] at hname
      dsimp only
      rw [if_pos (by simpa using hname)]
    · rfl
  rw [readClass, List.foldl_ext _ (fun found _ => found) found hread]
  exact List.foldl_fixed' (fun _ => rfl) value.decorators

/-- A node that registers nothing leaves registrations and refusals as they are. -/
theorem readNode_of_not_registers {n : Node} (h : registers c n = false) (file : SourceFile)
    (found : Findings) : (readNode c file found n).registrations = found.registrations ∧
      (readNode c file found n).diagnostics = found.diagnostics := by
  have hbind : ∀ name value, (bindVariable c found name value).registrations =
      found.registrations ∧ (bindVariable c found name value).diagnostics = found.diagnostics := by
    intro name value
    rw [bindVariable]
    split <;> exact ⟨rfl, rfl⟩
  rw [readNode.eq_def]
  split
  · rw [registers] at h
    rw [h]
    exact ⟨rfl, rfl⟩
  · exact hbind _ _
  · exact hbind _ _
  · rw [registers] at h
    rw [readClass_of_not_element h]
    exact ⟨rfl, rfl⟩
  · rw [registers] at h
    rw [readClass_of_not_element h]
    exact ⟨rfl, rfl⟩
  · exact ⟨rfl, rfl⟩

/-- A file in which nothing registers an element has neither registrations nor refusals. -/
theorem ofFile_of_silent {file : SourceFile} (h : Silent c file.module) :
    ofFile c file = ([], []) := by
  have hread : ∀ nodes : List Node, (∀ n ∈ nodes, registers c n = false) → ∀ found : Findings,
      (nodes.foldl (readNode c file) found).registrations = found.registrations ∧
        (nodes.foldl (readNode c file) found).diagnostics = found.diagnostics := by
    intro nodes
    induction nodes with
    | nil => exact fun _ _ => ⟨rfl, rfl⟩
    | cons n rest ih =>
        intro hall found
        obtain ⟨hfirst, hrest⟩ := List.forall_mem_cons.mp hall
        obtain ⟨hregistrations, hrefused⟩ := readNode_of_not_registers hfirst file found
        rw [List.foldl_cons, ← hregistrations, ← hrefused]
        exact ih hrest _
  obtain ⟨hregistrations, hrefused⟩ := hread file.module.nodes h {}
  simp only [ofFile, hregistrations, hrefused, List.map_nil]

end Registration

/-! ## Links -/

namespace FileSymbols

/-- Exports of own names link nothing. -/
theorem linkedSpecifiers_exporting {symbols : FileSymbols} {exports : List Export}
    (h : ∀ e ∈ exports, e.specifier? = none) :
    (symbols.exporting exports).linkedSpecifiers = symbols.linkedSpecifiers := by
  have hnone : exports.filterMap Export.specifier? = [] := List.filterMap_eq_nil_iff.mpr h
  rw [linkedSpecifiers, linkedSpecifiers, exporting, List.filterMap_append, hnone, List.append_nil]

/-- Exports link their specifiers. -/
theorem mem_linkedSpecifiers_exporting {symbols : FileSymbols} {exports : List Export}
    {specifier : String} : specifier ∈ (symbols.exporting exports).linkedSpecifiers ↔
      specifier ∈ symbols.linkedSpecifiers ∨ ∃ e ∈ exports, e.specifier? = some specifier := by
  rw [linkedSpecifiers, linkedSpecifiers, exporting, List.filterMap_append, ← List.append_assoc,
    List.mem_append, List.mem_filterMap]

@[simp] theorem linkedSpecifiers_exporting_own (symbols : FileSymbols)
    (exported localName : String) :
    (symbols.exporting [.ownName exported localName]).linkedSpecifiers =
      symbols.linkedSpecifiers :=
  linkedSpecifiers_exporting fun e he => by rw [List.mem_singleton.mp he]; rfl

/-- Steps that link nothing do so over a list. -/
theorem linkedSpecifiers_foldl {α : Type} {step : FileSymbols → α → FileSymbols}
    (h : ∀ symbols a, (step symbols a).linkedSpecifiers = symbols.linkedSpecifiers)
    (items : List α) (symbols : FileSymbols) :
    (items.foldl step symbols).linkedSpecifiers = symbols.linkedSpecifiers := by
  induction items generalizing symbols with
  | nil => rfl
  | cons a rest ih => rw [List.foldl_cons, ih, h]

/-- An item that names no other module links nothing. -/
theorem linkedSpecifiers_add_of_own {file : SourceFile} {symbols : FileSymbols} {item : Stmt}
    (h : Program.itemSource? item = none) :
    (add file symbols item).linkedSpecifiers = symbols.linkedSpecifiers := by
  have hdefault : ∀ d : Declaration,
      (symbols.addDefault d).linkedSpecifiers = symbols.linkedSpecifiers :=
    fun d => linkedSpecifiers_exporting_own symbols "default" d.name
  cases item with
  | exported start decl =>
      rw [add]
      refine linkedSpecifiers_foldl ?_ _ symbols
      exact fun symbols d => linkedSpecifiers_exporting_own symbols d.name d.name
  | exportClass | exportFunction | exportInterface => exact hdefault _
  | exportValue start value =>
      cases value with
      | ident name => exact linkedSpecifiers_exporting_own symbols "default" name
      | _ => exact hdefault ⟨"default", file, .variableNode (some _) none, [start], start⟩
  | exportNames specifiers source attributes =>
      obtain rfl : source = none := h
      refine linkedSpecifiers_exporting fun e he => ?_
      obtain ⟨s, -, rfl⟩ := List.mem_map.mp he
      rfl
  | importFrom | exportAll => cases h
  | _ =>
      refine linkedSpecifiers_foldl ?_ _ symbols
      exact fun _ _ => rfl

/-- An import links its source. -/
theorem mem_linkedSpecifiers_add_importFrom {file : SourceFile} {symbols : FileSymbols}
    {names : List Source.ImportSpecifier} {source : Source.StringLiteral}
    {attributes : Option Source.Expr} {specifier : String}
    (h : specifier ∈ (add file symbols (.importFrom names source attributes)).linkedSpecifiers) :
    specifier ∈ symbols.linkedSpecifiers ∨ source.value? = some specifier := by
  rw [add] at h
  cases hsource : source.value? with
  | none =>
      rw [hsource] at h
      exact Or.inl h
  | some linked =>
      rw [hsource] at h
      rcases List.mem_append.mp h with himport | hexport
      · rw [List.map_append] at himport
        rcases List.mem_append.mp himport with hbefore | hnew
        · exact Or.inl (List.mem_append_left _ hbefore)
        · obtain ⟨i, hi, rfl⟩ := List.mem_map.mp hnew
          obtain ⟨s, -, rfl⟩ := List.mem_map.mp hi
          exact Or.inr rfl
      · exact Or.inl (List.mem_append_right _ hexport)

/-- An item links the module that it imports from or exports from, and no other. -/
theorem mem_linkedSpecifiers_add {file : SourceFile} {symbols : FileSymbols} {item : Stmt}
    {specifier : String} (h : specifier ∈ (add file symbols item).linkedSpecifiers) :
    specifier ∈ symbols.linkedSpecifiers ∨
      (Program.itemSource? item).bind (·.value?) = some specifier := by
  cases item with
  | importFrom names source attributes => exact mem_linkedSpecifiers_add_importFrom h
  | exportNames names source attributes =>
      rcases mem_linkedSpecifiers_exporting.mp h with hbefore | ⟨e, he, hspecifier⟩
      · exact Or.inl hbefore
      obtain ⟨s, -, rfl⟩ := List.mem_map.mp he
      refine Or.inr ?_
      show source.bind (·.value?) = some specifier
      cases hsource : source.bind (·.value?) with
      | none =>
          rw [hsource] at hspecifier
          cases hspecifier
      | some linked =>
          rw [hsource] at hspecifier
          exact hspecifier
  | exportAll source attributes =>
      rw [add] at h
      cases hsource : source.value? with
      | none =>
          rw [hsource] at h
          exact Or.inl h
      | some linked =>
          rw [hsource] at h
          rcases mem_linkedSpecifiers_exporting.mp h with hbefore | ⟨e, he, hspecifier⟩
          · exact Or.inl hbefore
          rw [List.mem_singleton.mp he] at hspecifier
          exact Or.inr (hsource.trans hspecifier)
  | _ =>
      rw [linkedSpecifiers_add_of_own rfl] at h
      exact Or.inl h

/-- What a file links to is what its items import from or export from. -/
theorem mem_linkedSpecifiers_ofFile {file : SourceFile} {specifier : String}
    (h : specifier ∈ (ofFile file).linkedSpecifiers) :
    ∃ item ∈ file.module.items, (Program.itemSource? item).bind (·.value?) = some specifier := by
  have hfold : ∀ (items : List Stmt) (symbols : FileSymbols),
      specifier ∈ (items.foldl (add file) symbols).linkedSpecifiers →
        specifier ∈ symbols.linkedSpecifiers ∨
          ∃ item ∈ items, (Program.itemSource? item).bind (·.value?) = some specifier := by
    intro items
    induction items with
    | nil => exact fun _ h => Or.inl h
    | cons item rest ih =>
        intro symbols h
        rcases ih _ h with hfirst | ⟨later, hlater, hspecifier⟩
        · rcases mem_linkedSpecifiers_add hfirst with hbefore | hspecifier
          · exact Or.inl hbefore
          · exact Or.inr ⟨item, List.mem_cons_self, hspecifier⟩
        · exact Or.inr ⟨later, List.mem_cons_of_mem _ hlater, hspecifier⟩
  rcases hfold file.module.items {} h with hempty | hitem
  · exact absurd hempty List.not_mem_nil
  · exact hitem

end FileSymbols

/-- Only relative specifiers may mean files. -/
theorem Path.isRelativeSpecifier_of_mem {source path : Path} {specifier : String}
    (h : path ∈ fallbackCandidates source specifier) : isRelativeSpecifier specifier = true := by
  by_contra hrelative
  rw [fallbackCandidates, moduleCandidates, specifierBase?, if_neg hrelative] at h
  exact absurd h List.not_mem_nil

/-- A specifier that a file links to and that may mean a file is one that loading follows. -/
theorem Program.mem_specifiers_of_linked {file : SourceFile} {specifier : String} {path : Path}
    (h : specifier ∈ (FileSymbols.ofFile file).linkedSpecifiers)
    (hpath : path ∈ Path.fallbackCandidates file.path specifier) :
    specifier ∈ specifiers file.module := by
  obtain ⟨item, hitem, hspecifier⟩ := FileSymbols.mem_linkedSpecifiers_ofFile h
  exact List.mem_filter.mpr
    ⟨List.mem_filterMap.mpr ⟨item, hitem, hspecifier⟩, Path.isRelativeSpecifier_of_mem hpath⟩

/-! ## One more file -/

namespace Program

/-- The ids of files when one more file takes a place. -/
def makeRoom (place id : Nat) : Nat :=
  if id < place then id else id + 1

/-- Making room keeps ids apart. -/
theorem makeRoom_injective (place : Nat) : Function.Injective (makeRoom place) := by
  intro i j h
  rw [makeRoom, makeRoom] at h
  split at h <;> split at h <;> omega

/-- Sorted with one more file, files stand as they stood, before it and after it. -/
theorem exists_mergeSort_cons {parsed : List ParsedFile} {added : ParsedFile}
    (h : DistinctPaths (added :: parsed)) :
    ∃ before after, (added :: parsed).mergeSort inOrder = before ++ added :: after ∧
      parsed.mergeSort inOrder = before ++ after := by
  obtain ⟨before, after, hsplit⟩ :=
    List.append_of_mem (List.mem_mergeSort.mpr (List.mem_cons_self : added ∈ added :: parsed))
  have hsorted := List.pairwise_mergeSort inOrder_trans inOrder_total (added :: parsed)
  have hperm := List.mergeSort_perm (added :: parsed) inOrder
  rw [hsplit] at hsorted hperm
  refine ⟨before, after, hsplit, (eq_mergeSort_of_perm (List.nodup_cons.mp h).2 ?_ ?_).symm⟩
  · exact hsorted.sublist (List.Sublist.append_left (List.sublist_cons_self added after) before)
  · exact (List.perm_middle.symm.trans hperm).cons_inv

/-- The files of a program with one more file, and the place that it takes. -/
theorem exists_files_cons (root : Path) {parsed : List ParsedFile} {added : ParsedFile}
    (h : DistinctPaths (added :: parsed)) :
    ∃ before after : List SourceFile,
      (ofParsed root parsed).files = before ++ after ∧
        (ofParsed root (added :: parsed)).files =
          before.map (·.renumber (makeRoom before.length)) ++
            placed root added before.length ::
              after.map (·.renumber (makeRoom before.length)) := by
  obtain ⟨before, after, hwith, hwithout⟩ := exists_mergeSort_cons h
  let place : ParsedFile × Nat → SourceFile := fun entry => placed root entry.1 entry.2
  have hfiles : ∀ parsed, (ofParsed root parsed).files =
      (parsed.mergeSort inOrder).zipIdx.map place := fun _ => rfl
  refine ⟨before.zipIdx.map place, (after.zipIdx before.length).map place, ?_, ?_⟩
  · rw [hfiles, hwithout, List.zipIdx_append, List.map_append, Nat.zero_add]
  · -- Files before the new one keep their ids, and each file behind it gets the next one.
    have hbefore : (before.zipIdx.map place).map (·.renumber (makeRoom before.length)) =
        before.zipIdx.map place := by
      rw [List.map_map]
      refine List.map_congr_left fun entry hentry => ?_
      have hlt := List.snd_lt_of_mem_zipIdx hentry
      have hid : makeRoom before.length entry.2 = entry.2 := if_pos (by omega)
      show placed root entry.1 (makeRoom before.length entry.2) = placed root entry.1 entry.2
      rw [hid]
    have hafter : ((after.zipIdx before.length).map place).map
        (·.renumber (makeRoom before.length)) = (after.zipIdx (before.length + 1)).map place := by
      rw [List.zipIdx_succ, List.map_map, List.map_map]
      refine List.map_congr_left fun entry hentry => ?_
      have hle := List.le_snd_of_mem_zipIdx hentry
      have hid : makeRoom before.length entry.2 = entry.2 + 1 := if_neg (by omega)
      show placed root entry.1 (makeRoom before.length entry.2) = placed root entry.1 (entry.2 + 1)
      rw [hid]
    rw [List.length_map, List.length_zipIdx, hbefore, hafter]
    rw [hfiles, hwith, List.zipIdx_append, List.zipIdx_cons, List.map_append, List.map_cons,
      Nat.zero_add]

end Program

namespace Workspace

section Added

variable {root : Path} {parsed : List ParsedFile} {added : ParsedFile} {c : Conventions}

/-- Under any other path than that of the added file the same file is found. -/
theorem file?_cons (h : Program.DistinctPaths (added :: parsed)) {ρ : Nat → Nat}
    (hfiles : ∀ file ∈ (Program.ofParsed root parsed).files,
      file.renumber ρ ∈ (Program.ofParsed root (added :: parsed)).files)
    {path : Path} (hpath : path ≠ added.path) :
    (Program.ofParsed root (added :: parsed)).file? path =
      ((Program.ofParsed root parsed).file? path).map (·.renumber ρ) := by
  have hsorted := Program.pairwise_before_files root h
  cases hfound : (Program.ofParsed root parsed).file? path with
  | some file =>
      have hsame : file.path = path := Program.path_of_file? hfound
      exact (Program.file?_eq_some_iff hsorted).mpr
        ⟨hfiles file (Program.mem_of_file? hfound), hsame⟩
  | none =>
      -- A file that is found now is an old one, and would have been found before.
      refine Option.eq_none_iff_forall_not_mem.mpr fun file hfile => ?_
      obtain ⟨hmem, rfl⟩ := (Program.file?_eq_some_iff hsorted).mp hfile
      obtain ⟨p, hp, place, rfl⟩ := Program.mem_files_ofParsed hmem
      rcases List.mem_cons.mp hp with rfl | hp
      · exact hpath rfl
      · obtain ⟨old, hold⟩ := Program.exists_placed root hp
        obtain ⟨found, hexists⟩ := Program.exists_file? hold
        change (Program.ofParsed root parsed).file? p.path = none at hfound
        change (Program.ofParsed root parsed).file? p.path = some found at hexists
        rw [hfound] at hexists
        cases hexists

/-- **One more file**: a file that no specifier of a program may mean leaves the files of the
    program as they are, under new ids. -/
theorem renumbers_cons (h : Program.DistinctPaths (added :: parsed))
    (hunlinked : ∀ file ∈ (Program.ofParsed root parsed).files,
      ∀ specifier ∈ Program.specifiers file.module,
        added.path ∉ Path.fallbackCandidates file.path specifier)
    {before after : List SourceFile} (hold : (Program.ofParsed root parsed).files = before ++ after)
    (hnew : (Program.ofParsed root (added :: parsed)).files =
      before.map (·.renumber (Program.makeRoom before.length)) ++
        Program.placed root added before.length ::
          after.map (·.renumber (Program.makeRoom before.length))) :
    Renumbers (Program.makeRoom before.length) (.ofProgram (.ofParsed root parsed) c)
      (.ofProgram (.ofParsed root (added :: parsed)) c) where
  conventions := rfl
  injective := Program.makeRoom_injective _
  files place := by
    show (Program.ofParsed root (added :: parsed)).files[_]? =
      (Program.ofParsed root parsed).files[place]?.map _
    rw [hold, hnew, Program.makeRoom]
    split
    · rename_i hlt
      rw [List.getElem?_append_left (by rw [List.length_map]; exact hlt),
        List.getElem?_append_left hlt, List.getElem?_map]
    · rename_i hge
      have hsub : place + 1 - before.length = place - before.length + 1 := by omega
      rw [List.getElem?_append_right (by rw [List.length_map]; omega),
        List.getElem?_append_right (by omega), List.length_map, hsub, List.getElem?_cons_succ,
        List.getElem?_map]
  candidates file hfile specifier hspecifier path hpath := by
    rw [symbolsOf_of_mem hfile] at hspecifier
    have hfollowed := Program.mem_specifiers_of_linked hspecifier hpath
    refine file?_cons h (fun file hfile => ?_) ?_
    · change file ∈ (Program.ofParsed root parsed).files at hfile
      rw [hold] at hfile
      rw [hnew]
      rcases List.mem_append.mp hfile with hbefore | hafter
      · exact List.mem_append_left _ (List.mem_map_of_mem hbefore)
      · exact List.mem_append_right _ (List.mem_cons_of_mem _ (List.mem_map_of_mem hafter))
    · rintro rfl
      exact hunlinked file hfile specifier hfollowed hpath

/-- A file that registers nothing and that no specifier of a program may mean leaves the catalog and
    the diagnostics as they are. -/
theorem assemble_cons (h : Program.DistinctPaths (added :: parsed))
    (hunlinked : ∀ file ∈ (Program.ofParsed root parsed).files,
      ∀ specifier ∈ Program.specifiers file.module,
        added.path ∉ Path.fallbackCandidates file.path specifier)
    (hsilent : Registration.Silent c added.module) (runtime : Runtime) :
    (Workspace.ofProgram (.ofParsed root (added :: parsed)) c).assemble runtime =
      (Workspace.ofProgram (.ofParsed root parsed) c).assemble runtime := by
  obtain ⟨before, after, hold, hnew⟩ := Program.exists_files_cons root h
  have hplaced : Registration.ofFile c (Program.placed root added before.length) = ([], []) :=
    Registration.ofFile_of_silent hsilent
  refine (renumbers_cons h hunlinked hold hnew).assemble ?_ ?_ runtime
  · simp only [discovered, Program.discoverableFiles, ofProgram, hold, hnew, List.filter_append,
      List.filter_cons, List.filter_map, Function.comp_def, SourceFile.renumber_discoverable,
      List.map_append, List.flatMap_append, List.flatMap_map, List.map_flatMap,
      Registration.ofFile_renumber]
    split <;> simp only [List.flatMap_cons, List.flatMap_map, Registration.ofFile_renumber,
      hplaced, List.nil_append]
  · simp only [discovered, Program.discoverableFiles, ofProgram, hold, hnew, List.filter_append,
      List.filter_cons, List.filter_map, Function.comp_def, SourceFile.renumber_discoverable,
      List.map_append, List.flatMap_append, List.flatMap_map, Registration.ofFile_renumber]
    split <;> simp only [List.flatMap_cons, List.flatMap_map, Registration.ofFile_renumber,
      hplaced, List.nil_append]

end Added

end Workspace

/-! ## Sources -/

/-- Reading a list gives what every item gives. -/
theorem mapM_eq_ok {ε α β : Type} {read : α → Except ε β} {items : List α} {results : List β} :
    items.mapM read = .ok results ↔ List.Forall₂ (fun a b => read a = .ok b) items results := by
  induction items generalizing results with
  | nil =>
      rw [List.mapM_nil, List.forall₂_nil_left_iff]
      exact ⟨fun h => (Except.ok.inj h).symm, fun h => congrArg Except.ok h.symm⟩
  | cons a rest ih =>
      rw [List.mapM_cons, List.forall₂_cons_left_iff]
      constructor
      · intro h
        cases hfirst : read a with
        | error fault =>
            rw [hfirst] at h
            cases h
        | ok b =>
            cases hrest : rest.mapM read with
            | error fault =>
                rw [hfirst, hrest] at h
                cases h
            | ok others =>
                rw [hfirst, hrest] at h
                exact ⟨b, others, rfl, ih.mp hrest, (Except.ok.inj h).symm⟩
      · rintro ⟨b, others, hfirst, hrest, rfl⟩
        rw [hfirst, ih.mpr hrest]
        rfl

namespace Program

variable {root : Path} {sources sources' : List (String × String)} {program : Program}

/-- The program of sources that are all parsed is that of what they are parsed to. -/
theorem ofSources_eq_ok : ofSources root sources = .ok program ↔
    ∃ parsed, List.Forall₂ (fun source file => parseSource root source = .ok file) sources parsed ∧
      ofParsed root parsed = program := by
  simp only [← mapM_eq_ok, ofSources]
  cases sources.mapM (parseSource root) with
  | error fault =>
      constructor
      · intro h
        cases h
      · rintro ⟨parsed, h, -⟩
        cases h
  | ok parsed =>
      constructor
      · exact fun h => ⟨parsed, rfl, Except.ok.inj h⟩
      · rintro ⟨_, heq, rfl⟩
        rw [Except.ok.inj heq]
        rfl

/-- A source is parsed under its normal path. -/
theorem path_of_parseSource {source : String × String} {file : ParsedFile}
    (h : parseSource root source = .ok file) :
    file.path = Path.resolveFrom root source.1 := by
  obtain ⟨relative, text⟩ := source
  rw [parseSource] at h
  split at h
  · rw [← Except.ok.inj h]
  · cases h

/-- Sources are parsed under their normal paths. -/
theorem paths_of_parsed {parsed : List ParsedFile}
    (h : List.Forall₂ (fun source file => parseSource root source = .ok file) sources parsed) :
    parsed.map (·.path) = sources.map fun source => Path.resolveFrom root source.1 := by
  induction h with
  | nil => rfl
  | cons hfirst _ ih => rw [List.map_cons, List.map_cons, path_of_parseSource hfirst, ih]

/-- Sources with distinct paths make one program in whatever order they come. -/
theorem ofSources_of_perm (h : ofSources root sources = .ok program)
    (hdistinct : (sources.map fun source => Path.resolveFrom root source.1).Nodup)
    (hperm : sources'.Perm sources) : ofSources root sources' = .ok program := by
  obtain ⟨parsed, hparsed, rfl⟩ := ofSources_eq_ok.mp h
  obtain ⟨parsed', hparsed', hsame⟩ := List.perm_comp_forall₂ hperm hparsed
  have hpaths : DistinctPaths parsed := by
    rw [DistinctPaths, paths_of_parsed hparsed]
    exact hdistinct
  exact ofSources_eq_ok.mpr ⟨parsed', hparsed', (ofParsed_eq_of_perm root hpaths hsame.symm).symm⟩

end Program

/-- **Unrelated files do not interfere**: sources with distinct paths make one program in whatever
    order they come, and a further source under a new path that no specifier of the program may mean
    and that registers nothing leaves the catalog and the diagnostics as they are, wherever it
    stands among the sources. -/
theorem Workspace.unrelated_source_unnoticed {root : Path} {sources : List (String × String)}
    {program : Program} (hprogram : Program.ofSources root sources = .ok program)
    (hdistinct : (sources.map fun source => Path.resolveFrom root source.1).Nodup) :
    (∀ sources', sources'.Perm sources → Program.ofSources root sources' = .ok program) ∧
      ∀ (conventions : Conventions) (runtime : Runtime) (extra : String × String)
        (added : ParsedFile), Program.parseSource root extra = .ok added →
        (∀ file ∈ program.files, file.path ≠ added.path) →
        (∀ file ∈ program.files, ∀ specifier ∈ Program.specifiers file.module,
          added.path ∉ Path.fallbackCandidates file.path specifier) →
        Registration.Silent conventions added.module →
        ∀ sources', sources'.Perm (extra :: sources) →
          ∃ program', Program.ofSources root sources' = .ok program' ∧
            (Workspace.ofProgram program' conventions).assemble runtime =
              (Workspace.ofProgram program conventions).assemble runtime := by
  refine ⟨fun sources' hperm => Program.ofSources_of_perm hprogram hdistinct hperm, ?_⟩
  intro conventions runtime extra added hadded hnew hunlinked hsilent sources' hperm
  obtain ⟨parsed, hparsed, rfl⟩ := Program.ofSources_eq_ok.mp hprogram
  have hall : Program.ofSources root (extra :: sources) = .ok (.ofParsed root (added :: parsed)) :=
    Program.ofSources_eq_ok.mpr ⟨added :: parsed, .cons hadded hparsed, rfl⟩
  have hpaths := Program.paths_of_parsed hparsed
  have hfresh : added.path ∉ parsed.map (·.path) := by
    intro hmem
    obtain ⟨p, hp, hpath⟩ := List.mem_map.mp hmem
    obtain ⟨place, hplace⟩ := Program.exists_placed root hp
    exact hnew _ hplace hpath
  have hdistinctAll : ((extra :: sources).map fun source =>
      Path.resolveFrom root source.1).Nodup := by
    rw [List.map_cons, ← Program.path_of_parseSource hadded, ← hpaths]
    exact List.nodup_cons.mpr ⟨hfresh, hpaths ▸ hdistinct⟩
  refine ⟨_, Program.ofSources_of_perm hall hdistinctAll hperm, ?_⟩
  refine assemble_cons (List.nodup_cons.mpr ⟨hfresh, ?_⟩) hunlinked hsilent runtime
  rw [hpaths]
  exact hdistinct

/-! ### A file before the registration -/

/-- A source that registers a class, and imports a module that is not there. -/
def cardSource : String × String :=
  ("card.ts", "import \"./base\";\ncustomElements.define(\"x-card\", class {});")

/-- A source that declares a class and registers nothing. -/
def aboutSource : String × String :=
  ("about.ts", "export class About {}")

/-- A source whose path and module are known is parsed. -/
theorem Program.parseSource_eq {root path : Path} {source : String × String}
    {module : Source.Module} (hpath : Path.resolveFrom root source.1 = path)
    (hparse : Source.Module.parse? path.text source.2 = some module) :
    parseSource root source = .ok ⟨path, module, !path.isGenerated⟩ := by
  subst hpath
  obtain ⟨relative, text⟩ := source
  rw [parseSource]
  dsimp only at hparse ⊢
  rw [hparse]

/-- A program of one file holds it alone. -/
theorem Program.eq_of_mem_files_singleton {root : Path} {parsed : ParsedFile} {file : SourceFile}
    (h : file ∈ (ofParsed root [parsed]).files) :
    file.path = parsed.path ∧ file.module = parsed.module := by
  obtain ⟨p, hp, place, rfl⟩ := mem_files_ofParsed h
  rw [List.mem_singleton.mp hp]
  exact ⟨rfl, rfl⟩

/-- A file that takes the place of the registering one leaves its catalog as it is. -/
theorem Workspace.about_unnoticed :
    ∃ program program', Program.ofSources ⟨[.root]⟩ [cardSource] = .ok program ∧
      Program.ofSources ⟨[.root]⟩ [cardSource, aboutSource] = .ok program' ∧
      (Workspace.ofProgram program' {}).assemble .unknown =
        (Workspace.ofProgram program {}).assemble .unknown := by
  have hcardPath : Path.resolveFrom ⟨[.root]⟩ cardSource.1 = ⟨[.root, .name "card.ts"]⟩ := by
    simp only [cardSource, Path.resolveFrom, Path.ofText, Text.splitOn_slash]
    decide +kernel
  have haboutPath : Path.resolveFrom ⟨[.root]⟩ aboutSource.1 = ⟨[.root, .name "about.ts"]⟩ := by
    simp only [aboutSource, Path.resolveFrom, Path.ofText, Text.splitOn_slash]
    decide +kernel
  have hcardModule : (Source.Module.parse? (Path.text ⟨[.root, .name "card.ts"]⟩)
      cardSource.2).map Program.specifiers = some ["./base"] := by
    decide +kernel
  have haboutModule : (Source.Module.parse? (Path.text ⟨[.root, .name "about.ts"]⟩)
      aboutSource.2).map (fun m => decide (Registration.Silent {} m)) = some true := by
    decide +kernel
  obtain ⟨card, hcard, hspecifiers⟩ := Option.map_eq_some_iff.mp hcardModule
  obtain ⟨about, habout, hsilent⟩ := Option.map_eq_some_iff.mp haboutModule
  have hunlinked : (⟨[.root, .name "about.ts"]⟩ : Path) ∉
      Path.fallbackCandidates ⟨[.root, .name "card.ts"]⟩ "./base" := by
    simp only [Path.fallbackCandidates, Path.moduleCandidates, Path.specifierBase?,
      Path.resolveFrom, Path.ofText, Path.extension?, Path.withExtension, Path.splitName,
      Text.splitOn_slash, Text.splitOn_dot]
    decide +kernel
  have hprogram : Program.ofSources ⟨[.root]⟩ [cardSource] = .ok (.ofParsed ⟨[.root]⟩ [_]) :=
    Program.ofSources_eq_ok.mpr ⟨_, .cons (Program.parseSource_eq hcardPath hcard) .nil, rfl⟩
  have hapart : (⟨[.root, .name "card.ts"]⟩ : Path) ≠ ⟨[.root, .name "about.ts"]⟩ := by decide
  obtain ⟨-, hunnoticed⟩ := unrelated_source_unnoticed hprogram (List.nodup_singleton _)
  obtain ⟨program', hprogram', hassemble⟩ := hunnoticed {} .unknown aboutSource _
    (Program.parseSource_eq haboutPath habout)
    (fun file hfile => by
      rw [(Program.eq_of_mem_files_singleton hfile).1]
      exact hapart)
    (fun file hfile specifier hspecifier => by
      obtain ⟨hpath, hmodule⟩ := Program.eq_of_mem_files_singleton hfile
      rw [hmodule, hspecifiers] at hspecifier
      rw [hpath, List.mem_singleton.mp hspecifier]
      exact hunlinked)
    (of_decide_eq_true hsilent) [cardSource, aboutSource] (.swap _ _ _)
  exact ⟨_, program', hprogram, hprogram', hassemble⟩

end ElementCatalog
