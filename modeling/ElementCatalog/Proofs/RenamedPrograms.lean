import ElementCatalog.Proofs.RenamedTypes

/-!
# Renamed programs — consistent renaming keeps all schemas

Every file of a program has names of its own, and exports under names that other files see.  A
renaming is consistent if each file changes its declarations, its imports and its exports by its own
names, calls what it links by the names that the linked module exports under, and leaves well-known
names alone.  Toward: a renamed type has the schema of the type.  The route:

* files, imports and exports lead to the renamed counterparts of what they led to, so the search for
  an exported name goes the same way (`searches`);
* so renamed names refer to the counterparts of declarations (`type?`, `qualifiedType?`);
* expanders agree on counterparts, by induction on the number of declarations that are not open.
-/

namespace ElementCatalog

open Source (EntityName TypeExpr Renaming renameAll)
open ElementCatalog.Types

/-! ## Related options -/

section Rel

variable {α β γ δ : Type} {R : α → β → Prop} {S : γ → δ → Prop}

/-- Related steps lead from related options to related ones. -/
theorem rel_bind {a : Option α} {b : Option β} {f : α → Option γ} {g : β → Option δ}
    (h : Option.Rel R a b) (hstep : ∀ x y, a = some x → R x y → Option.Rel S (f x) (g y)) :
    Option.Rel S (a.bind f) (b.bind g) := by
  cases h with
  | none => exact .none
  | some hxy => exact hstep _ _ rfl hxy

/-- Related values of related options. -/
theorem rel_map {a : Option α} {b : Option β} {f : α → γ} {g : β → δ} (h : Option.Rel R a b)
    (hvalue : ∀ x y, a = some x → R x y → S (f x) (g y)) :
    Option.Rel S (a.map f) (b.map g) := by
  cases h with
  | none => exact .none
  | some hxy => exact .some (hvalue _ _ rfl hxy)

/-- The first of related options. The second one counts only if the first one is missing. -/
theorem rel_or {a a' : Option α} {b b' : Option β} (h : Option.Rel R a b)
    (h' : a = none → Option.Rel R a' b') : Option.Rel R (a.or a') (b.or b') := by
  cases h with
  | none => exact h' rfl
  | some hxy => exact .some hxy

/-- The first result for the items of a list. -/
theorem rel_findSome? {items : List α} {f : α → Option γ} {g : α → Option δ}
    (h : ∀ item ∈ items, Option.Rel S (f item) (g item)) :
    Option.Rel S (items.findSome? f) (items.findSome? g) := by
  induction items with
  | nil => exact .none
  | cons item rest ih =>
      obtain ⟨hitem, hrest⟩ := List.forall_mem_cons.mp h
      rw [List.findSome?_cons, List.findSome?_cons]
      generalize f item = a at hitem
      generalize g item = b at hitem
      cases hitem with
      | none => exact ih hrest
      | some hxy => exact .some hxy

/-- The first item of related lists that satisfies a test. -/
theorem rel_find? {as : List α} {bs : List β} {p : α → Bool} {q : β → Bool}
    (h : List.Forall₂ R as bs) (htest : ∀ x y, R x y → p x = q y) :
    Option.Rel R (as.find? p) (bs.find? q) := by
  induction h with
  | nil => exact .none
  | @cons x y _ _ hxy _ ih =>
      rw [List.find?_cons, List.find?_cons, htest x y hxy]
      cases q y with
      | true => exact .some hxy
      | false => exact ih

end Rel

/-! ## Consistent renaming -/

/-- An import is renamed by the names of its file and of the module that it is from. -/
def Import.rename (c : Renaming) (i : Import) : Import :=
  ⟨c.name i.localName, c.outside i.specifier i.imported, i.specifier⟩

/-- An export is renamed by the names of its file and of the module that it is from. -/
def Export.rename (c : Renaming) : Export → Export
  | .ownName exported localName => .ownName (c.exported exported) (c.name localName)
  | .fromModule exported inner specifier =>
    .fromModule (c.exported exported) (c.outside specifier inner) specifier
  | .allOf specifier => .allOf specifier

/-- A renaming keeps names apart and places apart. It leaves the name of the default export alone,
    and which names are well known. -/
structure Source.Renaming.Proper (c : Renaming) : Prop where
  name : Function.Injective c.name
  exported : Function.Injective c.exported
  outside : ∀ specifier, Function.Injective (c.outside specifier)
  default : c.name "default" = "default" ∧ c.exported "default" = "default" ∧
    ∀ specifier, c.outside specifier "default" = "default"
  all : ∀ specifier, c.outside specifier "*" = "*"
  wellKnown : ∀ name, wellKnown? (c.name name) = wellKnown? name
  move : ∀ p q, (c.move p).offset = (c.move q).offset ↔ p.offset = q.offset

namespace Source.Renaming.Proper

variable {c : Renaming} {specifier name : String}

/-- Only the default export is called `default` under a renamed name. -/
theorem exported_eq_default_iff (h : c.Proper) : c.exported name = "default" ↔ name = "default" :=
  h.exported.eq_iff' h.default.2.1

/-- Only the default export is imported as `default` under a renamed name. -/
theorem outside_eq_default_iff (h : c.Proper) :
    c.outside specifier name = "default" ↔ name = "default" :=
  (h.outside specifier).eq_iff' (h.default.2.2 specifier)

/-- Only a whole module is imported as `*` under a renamed name. -/
theorem outside_eq_all_iff (h : c.Proper) : c.outside specifier name = "*" ↔ name = "*" :=
  (h.outside specifier).eq_iff' (h.all specifier)

end Source.Renaming.Proper

namespace Workspace

/-- The type that an import brings in through the exports of its module. -/
def throughExports? (w : Workspace) (file : SourceFile) (i : Import) : Option Declaration :=
  (w.moduleFile? file i.specifier).bind fun target => w.exported? .type target i.imported

/-- A workspace is another one with its names changed, file by file. -/
structure Renames (c : Nat → Renaming) (w w' : Workspace) : Prop where
  files : List.Forall₂ SourceFile.SamePlace w.program.files w'.program.files
  proper : ∀ file ∈ w.program.files, (c file.id).Proper
  types : ∀ file ∈ w.program.files, ∀ name,
    Option.Rel (Declaration.Renamed c) ((w.symbolsOf file).declared? .type name)
      ((w'.symbolsOf file).declared? .type ((c file.id).name name))
  imports : ∀ file ∈ w.program.files,
    (w'.symbolsOf file).imports = (w.symbolsOf file).imports.map (·.rename (c file.id))
  exports : ∀ file ∈ w.program.files,
    (w'.symbolsOf file).exports = (w.symbolsOf file).exports.map (·.rename (c file.id))
  /-- A module is called from outside by the names that it exports under. -/
  linked : ∀ file ∈ w.program.files, ∀ specifier target,
    w.moduleFile? file specifier = some target →
      (c file.id).outside specifier = (c target.id).exported
  /-- What is handed on keeps the name that it has in its own module. -/
  handedOn : ∀ file ∈ w.program.files, ∀ specifier,
    .allOf specifier ∈ (w.symbolsOf file).exports →
      ∀ target, w.moduleFile? file specifier = some target →
        (c file.id).exported = (c target.id).exported
  /-- An import of what is not exported calls it by its own name. -/
  unexported : ∀ file ∈ w.program.files, ∀ i ∈ (w.symbolsOf file).imports, i.imported ≠ "default" →
    w.throughExports? file i = none →
      ∀ path ∈ Path.fallbackCandidates file.path i.specifier,
        ∀ target, w.program.file? path = some target →
          (c file.id).outside i.specifier i.imported = (c target.id).name i.imported
  /-- The members of enumerations keep their names. -/
  enumerated : ∀ file ∈ w.program.files, ∀ outer, enumMembers? (w.type? file outer) ≠ none →
    ∀ name, (c file.id).inner outer name = name
  /-- What stands in a namespace is called by the names that its module exports under. -/
  namespaced : ∀ file ∈ w.program.files, ∀ outer, enumMembers? (w.type? file outer) = none →
    ∀ i, (w.symbolsOf file).import? outer = some i → i.imported = "*" →
      (c file.id).inner outer = (c file.id).outside i.specifier

/-- A file of one workspace and the file at its place in another one. -/
structure Copy (w w' : Workspace) (file file' : SourceFile) : Prop where
  mem : file ∈ w.program.files
  mem' : file' ∈ w'.program.files
  place : file.SamePlace file'

/-- A declared type and the declared type that it is renamed to. -/
structure Counterpart (c : Nat → Renaming) (w w' : Workspace) (d d' : Declaration) : Prop where
  renamed : d.Renamed c d'
  declared : w.Declares .type d
  declared' : w'.Declares .type d'

/-- Where an export leads, and where it leads after renaming. -/
inductive StepCopy (c : Nat → Renaming) (w w' : Workspace) : ExportStep → ExportStep → Prop where
  | declared {d d' : Declaration} (h : Counterpart c w w' d d') :
    StepCopy c w w' (.declared d) (.declared d')
  | lookIn {file file' : SourceFile} (h : Copy w w' file file') (exported : String) :
    StepCopy c w w' (.lookIn file exported) (.lookIn file' ((c file.id).exported exported))

variable {c : Nat → Renaming} {w w' : Workspace} {file file' : SourceFile}

/-- Counterparts stand in files at the same place. -/
theorem Counterpart.copy {d d' : Declaration} (h : Counterpart c w w' d d') :
    Copy w w' d.file d'.file :=
  ⟨h.declared.file_mem, h.declared'.file_mem, h.renamed.file⟩

/-- The symbols of a file are found by its place. -/
theorem Copy.symbolsOf (h : Copy w w' file file') : w'.symbolsOf file' = w'.symbolsOf file := by
  rw [Workspace.symbolsOf, Workspace.symbolsOf, h.place.id]

namespace Renames

/-! ### Files -/

/-- The files with a path stand at the same place. -/
theorem file? (h : Renames c w w') (path : Path) :
    Option.Rel (Copy w w') (w.program.file? path) (w'.program.file? path) := by
  have hfiles : List.Forall₂ (Copy w w') w.program.files w'.program.files := by
    refine List.forall₂_iff_get.mpr ⟨h.files.length_eq, fun i hi hi' => ?_⟩
    exact ⟨List.get_mem _ _, List.get_mem _ _, h.files.get hi hi'⟩
  refine rel_find? (List.rel_reverse hfiles) fun found found' hfound => ?_
  rw [hfound.place.path]

/-- What is looked for in the files that some paths may mean. -/
theorem findSome?_candidates (h : Renames c w w') {α β : Type} {R : α → β → Prop}
    {paths : List Path} {look : SourceFile → Option α} {look' : SourceFile → Option β}
    (hlook : ∀ path ∈ paths, ∀ target target', w.program.file? path = some target →
      Copy w w' target target' → Option.Rel R (look target) (look' target')) :
    Option.Rel R (paths.findSome? fun path => (w.program.file? path).bind look)
      (paths.findSome? fun path => (w'.program.file? path).bind look') :=
  rel_findSome? fun path hpath => rel_bind (h.file? path) (hlook path hpath)

/-- A specifier means the file at the same place. -/
theorem moduleFile? (h : Renames c w w') (hfile : Copy w w' file file') (specifier : String) :
    Option.Rel (Copy w w') (w.moduleFile? file specifier) (w'.moduleFile? file' specifier) := by
  rw [Workspace.moduleFile?, Workspace.moduleFile?, hfile.place.path]
  exact rel_findSome? fun path _ => h.file? path

/-! ### Symbols -/

/-- A declared name has its counterpart. -/
theorem declared? (h : Renames c w w') (hfile : Copy w w' file file') (name : String) :
    Option.Rel (Counterpart c w w') ((w.symbolsOf file).declared? .type name)
      ((w'.symbolsOf file').declared? .type ((c file.id).name name)) := by
  have hrel := h.types file hfile.mem name
  rw [← hfile.symbolsOf] at hrel
  cases hd : (w.symbolsOf file).declared? .type name with
  | none =>
      rw [hd] at hrel
      generalize hd' : (w'.symbolsOf file').declared? .type ((c file.id).name name) = found at hrel
      cases hrel
      exact .none
  | some d =>
      rw [hd] at hrel
      generalize hd' : (w'.symbolsOf file').declared? .type ((c file.id).name name) = found at hrel
      cases hrel with
      | some hrenamed => exact .some ⟨hrenamed, ⟨file, name, hd⟩, ⟨file', _, hd'⟩⟩

/-- A renamed name is imported by the renamed import. -/
theorem import? (h : Renames c w w') (hfile : Copy w w' file file') (name : String) :
    (w'.symbolsOf file').import? ((c file.id).name name) =
      ((w.symbolsOf file).import? name).map (·.rename (c file.id)) := by
  have htest : (fun i => i.localName == (c file.id).name name) ∘ Import.rename (c file.id) =
      fun i => i.localName == name := by
    funext i
    exact Bool.eq_iff_iff.mpr (by
      simpa [Import.rename] using (h.proper file hfile.mem).name.eq_iff)
  rw [FileSymbols.import?, hfile.symbolsOf, h.imports file hfile.mem, List.find?_map, htest]
  rfl

/-- What a file exports under a renamed name is renamed. -/
theorem ownExport? (h : Renames c w w') (hfile : Copy w w' file file') (exported : String) :
    (w'.symbolsOf file').ownExport? ((c file.id).exported exported) =
      ((w.symbolsOf file).ownExport? exported).map (c file.id).name := by
  rw [FileSymbols.ownExport?, FileSymbols.ownExport?, hfile.symbolsOf, h.exports file hfile.mem,
    List.findSome?_map, List.map_findSome?]
  congr 1
  funext e
  cases e with
  | ownName outer localName =>
      dsimp only [Function.comp_apply, Export.rename]
      by_cases houter : outer = exported
      · rw [if_pos houter, if_pos (congrArg _ houter), Option.map_some]
      · rw [if_neg houter, if_neg ((h.proper file hfile.mem).exported.ne houter), Option.map_none]
  | _ => rfl

/-! ### Exports -/

/-- A link leads to the name that the linked module has for what is linked. -/
theorem linkedStep (h : Renames c w w') (hfile : Copy w w' file file')
    (specifier inner : String) :
    Option.Rel (StepCopy c w w')
      ((w.moduleFile? file specifier).map fun target => .lookIn target inner)
      ((w'.moduleFile? file' specifier).map fun target =>
        .lookIn target ((c file.id).outside specifier inner)) := by
  refine rel_map (h.moduleFile? hfile specifier) fun target target' htarget hcopy => ?_
  rw [h.linked file hfile.mem specifier target htarget]
  exact .lookIn hcopy inner

/-- A renamed export leads to the copy of what the export leads to. -/
theorem namedStep? (h : Renames c w w') (hfile : Copy w w' file file') (exported : String)
    (e : Export) :
    Option.Rel (StepCopy c w w') (w.namedStep? .type file exported e)
      (w'.namedStep? .type file' ((c file.id).exported exported) (e.rename (c file.id))) := by
  have hproper := h.proper file hfile.mem
  cases e with
  | ownName outer localName =>
      rw [Export.rename, Workspace.namedStep?, Workspace.namedStep?]
      by_cases houter : outer = exported
      · rw [if_pos houter, if_pos (congrArg _ houter), h.import? hfile]
        have hdeclared := h.declared? hfile localName
        generalize (w.symbolsOf file).declared? .type localName = found at hdeclared
        generalize (w'.symbolsOf file').declared? .type ((c file.id).name localName) = found'
          at hdeclared
        cases hdeclared with
        | some hd => exact .some (.declared hd)
        | none =>
            cases (w.symbolsOf file).import? localName with
            | none => exact .none
            | some i => exact h.linkedStep hfile i.specifier i.imported
      · rw [if_neg houter, if_neg (hproper.exported.ne houter)]
        exact .none
  | fromModule outer inner specifier =>
      rw [Export.rename, Workspace.namedStep?, Workspace.namedStep?]
      have hiff : ((c file.id).exported outer = (c file.id).exported exported ∧
          (c file.id).outside specifier inner ≠ "*") ↔ outer = exported ∧ inner ≠ "*" := by
        rw [hproper.exported.eq_iff, hproper.outside_eq_all_iff.ne]
      by_cases hnamed : outer = exported ∧ inner ≠ "*"
      · rw [if_pos hnamed, if_pos (hiff.mpr hnamed)]
        exact h.linkedStep hfile specifier inner
      · rw [if_neg hnamed, if_neg (mt hiff.mp hnamed)]
        exact .none
  | allOf specifier => exact .none

/-- A renamed export of everything leads to the copy of what the export leads to. -/
theorem handedOnStep? (h : Renames c w w') (hfile : Copy w w' file file') (exported : String)
    {e : Export} (he : e ∈ (w.symbolsOf file).exports) :
    Option.Rel (StepCopy c w w') (w.handedOnStep? file exported e)
      (w'.handedOnStep? file' ((c file.id).exported exported) (e.rename (c file.id))) := by
  cases e with
  | allOf specifier =>
      rw [Export.rename, Workspace.handedOnStep?, Workspace.handedOnStep?]
      have hiff : (c file.id).exported exported = "default" ↔ exported = "default" :=
        (h.proper file hfile.mem).exported_eq_default_iff
      by_cases hdefault : exported = "default"
      · rw [if_pos hdefault, if_pos (hiff.mpr hdefault)]
        exact .none
      · rw [if_neg hdefault, if_neg (mt hiff.mp hdefault)]
        refine rel_map (h.moduleFile? hfile specifier) fun target target' htarget hcopy => ?_
        rw [h.handedOn file hfile.mem specifier he target htarget]
        exact .lookIn hcopy exported
  | ownName | fromModule => exact .none

/-- The exports of a file under a renamed name lead to copies. -/
theorem exportSteps (h : Renames c w w') (hfile : Copy w w' file file') (exported : String) :
    List.Forall₂ (StepCopy c w w') (w.exportSteps .type file exported)
      (w'.exportSteps .type file' ((c file.id).exported exported)) := by
  let related (e e' : Export) : Prop :=
    e ∈ (w.symbolsOf file).exports ∧ e' = e.rename (c file.id)
  have hexports : List.Forall₂ related (w.symbolsOf file).exports
      (w'.symbolsOf file').exports := by
    rw [hfile.symbolsOf, h.exports file hfile.mem, List.forall₂_map_right_iff]
    exact List.forall₂_same.mpr fun e he => ⟨he, rfl⟩
  refine List.rel_append (List.rel_filterMap ?_ hexports) (List.rel_filterMap ?_ hexports)
  · rintro e _ ⟨-, rfl⟩
    exact h.namedStep? hfile exported e
  · rintro e _ ⟨he, rfl⟩
    exact h.handedOnStep? hfile exported he

/-- A place in an export search, renamed. -/
def renamePlace (c : Nat → Renaming) (place : Place) : Place :=
  (place.1, (c place.1).exported place.2)

/-- A renamed place has been visited exactly if the place has. -/
theorem mem_map_renamePlace_iff (h : Renames c w w') (hfile : Copy w w' file file')
    {visited : List Place} {exported : String} :
    (file'.id, (c file.id).exported exported) ∈ visited.map (renamePlace c) ↔
      (file.id, exported) ∈ visited := by
  rw [hfile.place.id]
  constructor
  · intro hmem
    obtain ⟨⟨id, name⟩, hplace, heq⟩ := List.mem_map.mp hmem
    obtain ⟨rfl, hname⟩ := Prod.mk.inj heq
    have heq : name = exported := (h.proper file hfile.mem).exported hname
    rwa [heq] at hplace
  · exact fun hmem => List.mem_map_of_mem (f := renamePlace c) hmem

/-- A search through copies of the pending steps goes the same way. -/
theorem searches (h : Renames c w w') {visited : List Place} {pending : List ExportStep}
    {result : Option Declaration} (hsearch : Searches w .type visited pending result) :
    ∀ {pending' : List ExportStep}, List.Forall₂ (StepCopy c w w') pending pending' →
      ∃ result', Searches w' .type (visited.map (renamePlace c)) pending' result' ∧
        Option.Rel (Counterpart c w w') result result' := by
  induction hsearch with
  | exhausted =>
      intro pending' hpending
      cases hpending
      exact ⟨none, .exhausted, .none⟩
  | found =>
      intro pending' hpending
      cases hpending with
      | cons hstep _ =>
          cases hstep with
          | declared hd => exact ⟨_, .found, .some hd⟩
  | @skipped _ _ _ exported _ hvisited _ ih =>
      intro pending' hpending
      cases hpending with
      | cons hstep hrest =>
          cases hstep with
          | lookIn hfile =>
              obtain ⟨result', hsearch', hresult⟩ := ih hrest
              exact ⟨result', .skipped ((h.mem_map_renamePlace_iff hfile).mpr hvisited) hsearch',
                hresult⟩
  | @opened _ _ _ exported _ hnew _ ih =>
      intro pending' hpending
      cases hpending with
      | cons hstep hrest =>
          cases hstep with
          | lookIn hfile =>
              obtain ⟨result', hsearch', hresult⟩ :=
                ih (List.rel_append (h.exportSteps hfile exported) hrest)
              refine ⟨result', .opened (mt (h.mem_map_renamePlace_iff hfile).mp hnew) ?_, hresult⟩
              rw [hfile.place.id]
              exact hsearch'

/-- A file exports the counterpart of what it exported. -/
theorem exported? (h : Renames c w w') (hfile : Copy w w' file file') (name : String) :
    Option.Rel (Counterpart c w w') (w.exported? .type file name)
      (w'.exported? .type file' ((c file.id).exported name)) := by
  obtain ⟨result', hsearch, hresult⟩ :=
    h.searches (searches_exported? hfile.mem name) (.cons (.lookIn hfile name) .nil)
  rwa [(searches_exported? hfile.mem' _).unique hsearch]

/-! ### Names -/

/-- A renamed import means the counterpart of what the import means, exported or not. -/
theorem unexported? (h : Renames c w w') (hfile : Copy w w' file file') {i : Import}
    (hi : i ∈ (w.symbolsOf file).imports) (hnone : w.throughExports? file i = none) :
    Option.Rel (Counterpart c w w') (w.unexported? .type file i)
      (w'.unexported? .type file' (i.rename (c file.id))) := by
  have hproper := h.proper file hfile.mem
  have hall : (i.rename (c file.id)).imported = "*" ↔ i.imported = "*" :=
    hproper.outside_eq_all_iff
  have hdefault : (i.rename (c file.id)).imported = "default" ↔ i.imported = "default" :=
    hproper.outside_eq_default_iff
  rw [Workspace.unexported?, Workspace.unexported?, hfile.place.path]
  by_cases himported : i.imported = "*"
  · rw [if_pos himported, if_pos (hall.mpr himported)]
    exact .none
  rw [if_neg himported, if_neg (mt hall.mp himported)]
  refine h.findSome?_candidates fun path hpath target target' htarget hcopy => ?_
  dsimp only
  by_cases hname : i.imported = "default"
  · rw [if_pos hname, if_pos (hdefault.mpr hname)]
    obtain ⟨hown, hexported, -⟩ := (h.proper target hcopy.mem).default
    have hexport := h.ownExport? hcopy "default"
    rw [hexported] at hexport
    have hlocal : ((w'.symbolsOf target').ownExport? "default").getD "default" =
        (c target.id).name (((w.symbolsOf target).ownExport? "default").getD "default") := by
      rw [hexport]
      cases (w.symbolsOf target).ownExport? "default" with
      | none => exact hown.symm
      | some localName => rfl
    rw [hlocal]
    exact h.declared? hcopy _
  · rw [if_neg hname, if_neg (mt hdefault.mp hname)]
    have hlocal : (i.rename (c file.id)).imported = (c target.id).name i.imported :=
      h.unexported file hfile.mem i hi hname hnone path hpath target htarget
    rw [hlocal]
    exact h.declared? hcopy i.imported

/-- A renamed import brings in the counterpart of what the import brings in. -/
theorem imported? (h : Renames c w w') (hfile : Copy w w' file file') {i : Import}
    (hi : i ∈ (w.symbolsOf file).imports) :
    Option.Rel (Counterpart c w w') (w.imported? .type file i)
      (w'.imported? .type file' (i.rename (c file.id))) := by
  refine rel_or (rel_bind (h.moduleFile? hfile i.specifier) fun target target' htarget hcopy => ?_)
    fun hnone => h.unexported? hfile hi hnone
  rw [Import.rename, h.linked file hfile.mem i.specifier target htarget]
  exact h.exported? hcopy i.imported

/-- A renamed name refers to the counterpart of what the name refers to. -/
theorem type? (h : Renames c w w') (hfile : Copy w w' file file') (name : String) :
    Option.Rel (Counterpart c w w') (w.type? file name)
      (w'.type? file' ((c file.id).name name)) := by
  refine rel_or (h.declared? hfile name) fun _ => ?_
  rw [h.import? hfile]
  cases hi : (w.symbolsOf file).import? name with
  | none => exact .none
  | some i => exact h.imported? hfile (List.mem_of_find?_eq_some hi)

/-- A qualified name is looked for in the module that its first part stands for. -/
theorem qualifiedType?_of_import? {w : Workspace} {file : SourceFile} {outer name : String}
    {i : Import} (hi : (w.symbolsOf file).import? outer = some i) :
    w.qualifiedType? file outer name =
      if i.imported = "*" then
        (w.moduleFile? file i.specifier).bind fun target => w.exported? .type target name
      else none := by
  rw [Workspace.qualifiedType?, hi]
  by_cases himported : i.imported = "*"
  · rw [if_pos himported]
    simp [himported]
  · rw [if_neg himported]
    simp [himported]

/-- A renamed qualified name refers to the counterpart of what the name refers to. -/
theorem qualifiedType? (h : Renames c w w') (hfile : Copy w w' file file') {outer : String}
    (henum : enumMembers? (w.type? file outer) = none) (name : String) :
    Option.Rel (Counterpart c w w') (w.qualifiedType? file outer name)
      (w'.qualifiedType? file' ((c file.id).name outer) ((c file.id).inner outer name)) := by
  cases hi : (w.symbolsOf file).import? outer with
  | none =>
      rw [Workspace.qualifiedType?, Workspace.qualifiedType?, h.import? hfile, hi]
      exact .none
  | some i =>
      have hi' := h.import? hfile outer
      rw [hi, Option.map_some] at hi'
      rw [qualifiedType?_of_import? hi, qualifiedType?_of_import? hi']
      have hall : (i.rename (c file.id)).imported = "*" ↔ i.imported = "*" :=
        (h.proper file hfile.mem).outside_eq_all_iff
      by_cases himported : i.imported = "*"
      · rw [if_pos himported, if_pos (hall.mpr himported),
          h.namespaced file hfile.mem outer henum i hi himported]
        refine rel_bind (h.moduleFile? hfile i.specifier) fun target target' htarget hcopy => ?_
        rw [h.linked file hfile.mem i.specifier target htarget]
        exact h.exported? hcopy name
      · rw [if_neg himported, if_neg (mt hall.mp himported)]
        exact .none

end Renames

end Workspace

end ElementCatalog
