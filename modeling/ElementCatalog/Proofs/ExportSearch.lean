import ElementCatalog.Program.Resolution
import ElementCatalog.Proofs.DeclaredNames
import Mathlib.Algebra.Order.BigOperators.Group.List
import Mathlib.Algebra.Order.Group.Nat
import Mathlib.Data.Finset.Card
import Mathlib.Data.Finset.Prod

/-!
# The search through exports — sound and complete on every graph of modules

Toward: a file exports a declaration under a name exactly if a finite chain of exports ends there,
on cyclic graphs too.  The route:

* `EndsAt` and `LeadsTo` are the edges of the graph, stated on the exports as they are written;
  `exportSteps` lists exactly these edges;
* `Searches` is the search without a bound on its steps.  A weight that every step lowers shows that
  it ends within `searchBound` steps;
* what the search finds is the end of a chain, and if it finds nothing the places that it has
  visited are closed under the edges, so no chain leads out of them.
-/

namespace ElementCatalog

namespace FileSymbols

/-- The names that the imports and exports of a file have in other modules. -/
def linkedNames (symbols : FileSymbols) : List String :=
  symbols.imports.map (·.imported) ++ symbols.exports.filterMap fun
    | .fromModule _ imported _ => some imported
    | _ => none

/-- There are no more linked names than imports and exports. -/
theorem length_linkedNames_le (symbols : FileSymbols) :
    symbols.linkedNames.length ≤ symbols.imports.length + symbols.exports.length := by
  rw [linkedNames, List.length_append, List.length_map]
  exact Nat.add_le_add_left (List.length_filterMap_le _ _) _

/-- An import links the name that it has in the other module. -/
theorem imported_mem_linkedNames {symbols : FileSymbols} {i : Import} (h : i ∈ symbols.imports) :
    i.imported ∈ symbols.linkedNames :=
  List.mem_append_left _ (List.mem_map.mpr ⟨i, h, rfl⟩)

/-- An export of another module's name links that name. -/
theorem fromModule_mem_linkedNames {symbols : FileSymbols} {exported inner specifier : String}
    (h : .fromModule exported inner specifier ∈ symbols.exports) :
    inner ∈ symbols.linkedNames :=
  List.mem_append_right _ (List.mem_filterMap.mpr ⟨_, h, rfl⟩)

end FileSymbols

namespace Workspace

variable {w : Workspace} {space : NameSpace}

/-! ## The graph of exports -/

/-- The file exports one of its own declarations under the name. -/
def EndsAt (w : Workspace) (space : NameSpace) (file : SourceFile) (exported : String)
    (d : Declaration) : Prop :=
  ∃ localName : String, .ownName exported localName ∈ (w.symbolsOf file).exports ∧
    (w.symbolsOf file).declared? space localName = some d

/-- An edge of the graph: the export of a name leads on to a name of another file. -/
inductive LeadsTo (w : Workspace) (space : NameSpace) (file : SourceFile) (exported : String) :
    SourceFile → String → Prop where
  | imported {localName : String} {i : Import} {target : SourceFile}
      (hexport : .ownName exported localName ∈ (w.symbolsOf file).exports)
      (hlocal : (w.symbolsOf file).declared? space localName = none)
      (himport : (w.symbolsOf file).import? localName = some i)
      (htarget : w.moduleFile? file i.specifier = some target) :
      LeadsTo w space file exported target i.imported
  | reexported {inner specifier : String} {target : SourceFile}
      (hexport : .fromModule exported inner specifier ∈ (w.symbolsOf file).exports)
      (hinner : inner ≠ "*") (htarget : w.moduleFile? file specifier = some target) :
      LeadsTo w space file exported target inner
  | handedOn {specifier : String} {target : SourceFile} (hname : exported ≠ "default")
      (hexport : .allOf specifier ∈ (w.symbolsOf file).exports)
      (htarget : w.moduleFile? file specifier = some target) :
      LeadsTo w space file exported target exported

/-- A finite chain of exports that ends at a declaration. -/
inductive ExportChain (w : Workspace) (space : NameSpace) :
    SourceFile → String → Declaration → Prop where
  | ends {file : SourceFile} {exported : String} {d : Declaration}
      (h : EndsAt w space file exported d) : ExportChain w space file exported d
  | leads {file target : SourceFile} {exported inner : String} {d : Declaration}
      (h : LeadsTo w space file exported target inner)
      (rest : ExportChain w space target inner d) : ExportChain w space file exported d

/-- What a named export leads to: a declaration of the file, the module of an import, or another
    module's name. -/
theorem namedStep?_eq_some {file : SourceFile} {exported : String} {e : Export} {step : ExportStep}
    (h : w.namedStep? space file exported e = some step) :
    (∃ localName d, e = .ownName exported localName ∧
      (w.symbolsOf file).declared? space localName = some d ∧ step = .declared d) ∨
    (∃ localName i target, e = .ownName exported localName ∧
      (w.symbolsOf file).declared? space localName = none ∧
      (w.symbolsOf file).import? localName = some i ∧
      w.moduleFile? file i.specifier = some target ∧ step = .lookIn target i.imported) ∨
    ∃ imported specifier target, e = .fromModule exported imported specifier ∧ imported ≠ "*" ∧
      w.moduleFile? file specifier = some target ∧ step = .lookIn target imported := by
  cases e with
  | ownName outer localName =>
      rw [namedStep?] at h
      split at h
      · rename_i houter
        subst houter
        cases hd : (w.symbolsOf file).declared? space localName with
        | some d =>
            rw [hd] at h
            exact Or.inl ⟨localName, d, rfl, hd, (Option.some.inj h).symm⟩
        | none =>
            rw [hd] at h
            obtain ⟨i, hi, htarget⟩ := Option.bind_eq_some_iff.mp h
            obtain ⟨target, htarget, hstep⟩ := Option.map_eq_some_iff.mp htarget
            exact Or.inr (Or.inl ⟨localName, i, target, rfl, hd, hi, htarget, hstep.symm⟩)
      · cases h
  | fromModule outer imported specifier =>
      rw [namedStep?] at h
      split at h
      · rename_i houter
        obtain ⟨rfl, himported⟩ := houter
        obtain ⟨target, htarget, hstep⟩ := Option.map_eq_some_iff.mp h
        exact Or.inr (Or.inr ⟨imported, specifier, target, rfl, himported, htarget, hstep.symm⟩)
      · cases h
  | allOf specifier => cases h

/-- An export of everything leads to another module under the same name. -/
theorem handedOnStep?_eq_some {file : SourceFile} {exported : String} {e : Export}
    {step : ExportStep} (h : w.handedOnStep? file exported e = some step) :
    ∃ specifier target, e = .allOf specifier ∧ exported ≠ "default" ∧
      w.moduleFile? file specifier = some target ∧ step = .lookIn target exported := by
  cases e with
  | allOf specifier =>
      rw [handedOnStep?] at h
      split at h
      · cases h
      · rename_i hname
        obtain ⟨target, htarget, hstep⟩ := Option.map_eq_some_iff.mp h
        exact ⟨specifier, target, rfl, hname, htarget, hstep.symm⟩
  | ownName outer localName => cases h
  | fromModule outer imported specifier => cases h

/-- The steps that end the search are the declarations that the file exports itself. -/
theorem declared_mem_exportSteps {file : SourceFile} {exported : String} {d : Declaration} :
    .declared d ∈ w.exportSteps space file exported ↔ EndsAt w space file exported d := by
  rw [exportSteps, List.mem_append, List.mem_filterMap, List.mem_filterMap]
  constructor
  · rintro (⟨e, he, hstep⟩ | ⟨e, he, hstep⟩)
    · obtain ⟨localName, found, rfl, hd, heq⟩ | ⟨_, _, _, _, _, _, _, heq⟩ |
        ⟨_, _, _, _, _, _, heq⟩ := namedStep?_eq_some hstep
      · cases heq
        exact ⟨localName, he, hd⟩
      · cases heq
      · cases heq
    · obtain ⟨_, _, _, _, _, heq⟩ := handedOnStep?_eq_some hstep
      cases heq
  · rintro ⟨localName, he, hd⟩
    exact Or.inl ⟨_, he, by simp [namedStep?, hd]⟩

/-- The steps that lead on are the edges of the graph. -/
theorem lookIn_mem_exportSteps {file target : SourceFile} {exported inner : String} :
    .lookIn target inner ∈ w.exportSteps space file exported ↔
      LeadsTo w space file exported target inner := by
  rw [exportSteps, List.mem_append, List.mem_filterMap, List.mem_filterMap]
  constructor
  · rintro (⟨e, he, hstep⟩ | ⟨e, he, hstep⟩)
    · obtain ⟨_, _, _, _, heq⟩ | ⟨_, i, found, rfl, hd, hi, hfound, heq⟩ |
        ⟨imported, _, found, rfl, himported, hfound, heq⟩ := namedStep?_eq_some hstep
      · cases heq
      · cases heq
        exact .imported he hd hi hfound
      · cases heq
        exact .reexported he himported hfound
    · obtain ⟨specifier, found, rfl, hname, hfound, heq⟩ := handedOnStep?_eq_some hstep
      cases heq
      exact .handedOn hname he hfound
  · intro h
    cases h with
    | imported hexport hlocal himport htarget =>
        exact Or.inl ⟨_, hexport, by simp [namedStep?, hlocal, himport, htarget]⟩
    | reexported hexport hinner htarget =>
        exact Or.inl ⟨_, hexport, by simp [namedStep?, hinner, htarget]⟩
    | handedOn hname hexport htarget =>
        exact Or.inr ⟨_, hexport, by simp [handedOnStep?, hname, htarget]⟩

/-! ## The search without a bound -/

/-- A place of the search: the id of a file, and the name that it is searched for. -/
abbrev Place := Nat × String

/-- The search ends with a result, for the places visited so far and the pending steps. -/
inductive Searches (w : Workspace) (space : NameSpace) :
    List Place → List ExportStep → Option Declaration → Prop where
  | exhausted {visited : List Place} : Searches w space visited [] none
  | found {visited : List Place} {pending : List ExportStep} {d : Declaration} :
      Searches w space visited (.declared d :: pending) (some d)
  | skipped {visited : List Place} {pending : List ExportStep} {file : SourceFile}
      {exported : String} {result : Option Declaration} (h : (file.id, exported) ∈ visited)
      (rest : Searches w space visited pending result) :
      Searches w space visited (.lookIn file exported :: pending) result
  | opened {visited : List Place} {pending : List ExportStep} {file : SourceFile}
      {exported : String} {result : Option Declaration} (h : (file.id, exported) ∉ visited)
      (rest : Searches w space ((file.id, exported) :: visited)
        (w.exportSteps space file exported ++ pending) result) :
      Searches w space visited (.lookIn file exported :: pending) result

/-- A search ends in one way only. -/
theorem Searches.unique {visited : List Place} {pending : List ExportStep}
    {result result' : Option Declaration}
    (h : Searches w space visited pending result) (h' : Searches w space visited pending result') :
    result = result' := by
  induction h with
  | exhausted => cases h' with
    | exhausted => rfl
  | found => cases h' with
    | found => rfl
  | skipped hvisited _ ih => cases h' with
    | skipped _ rest => exact ih rest
    | opened hnew _ => exact absurd hvisited hnew
  | opened hnew _ ih => cases h' with
    | skipped hvisited _ => exact absurd hvisited hnew
    | opened _ rest => exact ih rest

/-- What is found is pending or the end of a chain from a pending place. -/
theorem Searches.sound {visited : List Place} {pending : List ExportStep}
    {result : Option Declaration} (h : Searches w space visited pending result) :
    ∀ d : Declaration, result = some d →
      .declared d ∈ pending ∨
        ∃ file exported, .lookIn file exported ∈ pending ∧
          ExportChain w space file exported d := by
  induction h with
  | exhausted => exact fun d hd => nomatch hd
  | found =>
      intro d hd
      rw [Option.some.inj hd]
      exact Or.inl List.mem_cons_self
  | skipped _ _ ih =>
      intro d hd
      rcases ih d hd with hmem | ⟨file, exported, hmem, hchain⟩
      · exact Or.inl (List.mem_cons_of_mem _ hmem)
      · exact Or.inr ⟨file, exported, List.mem_cons_of_mem _ hmem, hchain⟩
  | @opened visited pending file exported result _ _ ih =>
      intro d hd
      -- a step of the opened place prolongs its chain by one edge
      rcases ih d hd with hmem | ⟨target, inner, hmem, hchain⟩
      · rcases List.mem_append.mp hmem with hstep | hpending
        · exact Or.inr ⟨file, exported, List.mem_cons_self,
            .ends (declared_mem_exportSteps.mp hstep)⟩
        · exact Or.inl (List.mem_cons_of_mem _ hpending)
      · rcases List.mem_append.mp hmem with hstep | hpending
        · exact Or.inr ⟨file, exported, List.mem_cons_self,
            .leads (lookIn_mem_exportSteps.mp hstep) hchain⟩
        · exact Or.inr ⟨target, inner, List.mem_cons_of_mem _ hpending, hchain⟩

/-! ## Completeness -/

/-- The files of the pending steps are files of the program. -/
def PendingFiles (w : Workspace) (pending : List ExportStep) : Prop :=
  ∀ file exported, .lookIn file exported ∈ pending → file ∈ w.program.files

/-- Every step from a place leads to one of the given places, and none ends at a declaration. -/
def Settled (w : Workspace) (space : NameSpace) (places : List Place) (file : SourceFile)
    (exported : String) : Prop :=
  (∀ d, ¬ EndsAt w space file exported d) ∧
    ∀ target inner, LeadsTo w space file exported target inner → (target.id, inner) ∈ places

/-- A file that a specifier means is a file of the program. -/
theorem moduleFile?_mem {file target : SourceFile} {specifier : String}
    (h : w.moduleFile? file specifier = some target) : target ∈ w.program.files := by
  obtain ⟨path, -, hpath⟩ := List.exists_of_findSome?_eq_some h
  exact List.mem_reverse.mp (List.mem_of_find?_eq_some hpath)

/-- Every edge leads to a file of the program. -/
theorem LeadsTo.mem_files {file target : SourceFile} {exported inner : String}
    (h : LeadsTo w space file exported target inner) : target ∈ w.program.files := by
  cases h with
  | imported _ _ _ htarget => exact moduleFile?_mem htarget
  | reexported _ _ htarget => exact moduleFile?_mem htarget
  | handedOn _ _ htarget => exact moduleFile?_mem htarget

/-- Two files of a program with one id are one file. -/
theorem eq_of_id_eq {a b : SourceFile} (ha : a ∈ w.program.files) (hb : b ∈ w.program.files)
    (h : a.id = b.id) : a = b := by
  obtain ⟨i, hi⟩ := List.mem_iff_getElem?.mp ha
  obtain ⟨j, hj⟩ := List.mem_iff_getElem?.mp hb
  have hij : i = j := by
    rw [← w.program.id_eq_place i a hi, ← w.program.id_eq_place j b hj, h]
  rw [hij, hj] at hi
  exact (Option.some.inj hi).symm

/-- Opening a place leaves only files of the program pending. -/
theorem PendingFiles.opened {pending : List ExportStep} {file : SourceFile} {exported : String}
    (h : PendingFiles w (.lookIn file exported :: pending)) :
    PendingFiles w (w.exportSteps space file exported ++ pending) := by
  intro target inner hmem
  rcases List.mem_append.mp hmem with hstep | hpending
  · exact (lookIn_mem_exportSteps.mp hstep).mem_files
  · exact h target inner (List.mem_cons_of_mem _ hpending)

/-- If the search finds nothing, it has visited every pending place, and all that it has visited
    anew is settled among the places visited in the end. -/
theorem Searches.exhaustive {visited : List Place} {pending : List ExportStep}
    {result : Option Declaration} (h : Searches w space visited pending result)
    (hresult : result = none) (hfiles : PendingFiles w pending) :
    ∃ places : List Place, visited ⊆ places ∧ (∀ d, .declared d ∉ pending) ∧
      (∀ file exported, .lookIn file exported ∈ pending → (file.id, exported) ∈ places) ∧
      ∀ file ∈ w.program.files, ∀ exported, (file.id, exported) ∈ places →
        (file.id, exported) ∈ visited ∨ Settled w space places file exported := by
  induction h with
  | @exhausted visited =>
      exact ⟨visited, fun _ hp => hp, fun _ => List.not_mem_nil,
        fun _ _ hp => absurd hp List.not_mem_nil, fun _ _ _ hp => Or.inl hp⟩
  | found => exact nomatch hresult
  | @skipped visited pending file exported result hvisited _ ih =>
      obtain ⟨places, hsub, hdeclared, hpending, hsettled⟩ := ih hresult
        (fun f n hmem => hfiles f n (List.mem_cons_of_mem _ hmem))
      refine ⟨places, hsub, ?_, ?_, hsettled⟩
      · intro d hmem
        rcases List.mem_cons.mp hmem with heq | hrest
        · exact nomatch heq
        · exact hdeclared d hrest
      · intro f n hmem
        rcases List.mem_cons.mp hmem with heq | hrest
        · cases heq
          exact hsub hvisited
        · exact hpending f n hrest
  | @opened visited pending file exported result hnew _ ih =>
      obtain ⟨places, hsub, hdeclared, hpending, hsettled⟩ := ih hresult hfiles.opened
      have hopened : (file.id, exported) ∈ places := hsub List.mem_cons_self
      refine ⟨places, fun p hp => hsub (List.mem_cons_of_mem _ hp), ?_, ?_, ?_⟩
      · intro d hmem
        rcases List.mem_cons.mp hmem with heq | hrest
        · exact nomatch heq
        · exact hdeclared d (List.mem_append_right _ hrest)
      · intro f n hmem
        rcases List.mem_cons.mp hmem with heq | hrest
        · cases heq
          exact hopened
        · exact hpending f n (List.mem_append_right _ hrest)
      · intro f hf n hplace
        rcases hsettled f hf n hplace with hvisited | hdone
        · rcases List.mem_cons.mp hvisited with heq | hbefore
          · -- the opened place itself: its steps were pending, so they are visited by now
            have hid : f.id = file.id := congrArg Prod.fst heq
            have hname : n = exported := congrArg Prod.snd heq
            obtain rfl : f = file := eq_of_id_eq hf (hfiles file exported List.mem_cons_self) hid
            subst hname
            refine Or.inr ⟨fun d hd => ?_, fun target inner hedge => ?_⟩
            · exact hdeclared d (List.mem_append_left _ (declared_mem_exportSteps.mpr hd))
            · exact hpending target inner
                (List.mem_append_left _ (lookIn_mem_exportSteps.mpr hedge))
          · exact Or.inl hbefore
        · exact Or.inr hdone

/-- No chain leads out of settled places. -/
theorem ExportChain.not_settled {places : List Place} {file : SourceFile} {exported : String}
    {d : Declaration} (h : ExportChain w space file exported d)
    (hsettled : ∀ file ∈ w.program.files, ∀ exported, (file.id, exported) ∈ places →
      Settled w space places file exported)
    (hfile : file ∈ w.program.files) : (file.id, exported) ∉ places := by
  induction h with
  | ends hend =>
      intro hplace
      exact (hsettled _ hfile _ hplace).1 _ hend
  | leads hedge _ ih =>
      intro hplace
      exact ih hedge.mem_files ((hsettled _ hfile _ hplace).2 _ _ hedge)

/-- If the search from a file finds nothing, no chain of exports starts there. -/
theorem Searches.complete {file : SourceFile} {exported : String} (hfile : file ∈ w.program.files)
    (h : Searches w space [] [.lookIn file exported] none) (d : Declaration) :
    ¬ ExportChain w space file exported d := by
  intro hchain
  have hfiles : PendingFiles w [.lookIn file exported] := by
    intro f n hmem
    cases List.mem_singleton.mp hmem
    exact hfile
  obtain ⟨places, -, -, hpending, hsettled⟩ := h.exhaustive rfl hfiles
  refine hchain.not_settled ?_ hfile (hpending file exported List.mem_cons_self)
  intro f hf n hplace
  rcases hsettled f hf n hplace with hvisited | hdone
  · exact nomatch hvisited
  · exact hdone

/-! ## The search ends

    The search only visits places of a finite graph: the files of the program with the name that is
    searched for and the names that imports and exports have in other modules. -/

/-- The names that the imports and exports of all files have in other modules. -/
def linkedNames (w : Workspace) : List String :=
  w.symbols.toList.flatMap FileSymbols.linkedNames

/-- There are no more linked names than links. -/
theorem length_linkedNames_le (w : Workspace) : w.linkedNames.length ≤ w.linkCount := by
  rw [linkedNames, linkCount]
  induction w.symbols.toList with
  | nil => exact Nat.le_refl 0
  | cons symbols rest ih =>
      have hfirst := symbols.length_linkedNames_le
      rw [List.flatMap_cons, List.flatMap_cons, List.flatMap_cons, List.length_append,
        List.length_append, List.length_append]
      omega

/-- The symbols of a file are empty or among those of the workspace. -/
theorem symbolsOf_eq_or_mem (w : Workspace) (file : SourceFile) :
    w.symbolsOf file = {} ∨ w.symbolsOf file ∈ w.symbols.toList := by
  rw [symbolsOf]
  cases h : w.symbols[file.id]? with
  | none => exact Or.inl rfl
  | some symbols => exact Or.inr (Array.mem_toList_iff.mpr (Array.mem_of_getElem? h))

/-- The symbols of a file of the program are those that it declares. -/
theorem symbolsOf_of_mem {w : Workspace} {file : SourceFile} (h : file ∈ w.program.files) :
    w.symbolsOf file = FileSymbols.ofFile file := by
  obtain ⟨place, hplace⟩ := List.mem_iff_getElem?.mp h
  have hid : file.id = place := w.program.id_eq_place place file hplace
  rw [symbolsOf, w.symbols_eq, List.getElem?_toArray, List.getElem?_map, hid, hplace]
  rfl

/-- A linked name of a file is a linked name of the workspace. -/
theorem mem_linkedNames {file : SourceFile} {name : String}
    (h : name ∈ (w.symbolsOf file).linkedNames) : name ∈ w.linkedNames := by
  rcases w.symbolsOf_eq_or_mem file with hempty | hmem
  · rw [hempty] at h
    exact absurd h List.not_mem_nil
  · exact List.mem_flatMap.mpr ⟨_, hmem, h⟩

/-- A file has no more exports than there are links. -/
theorem length_exports_le (w : Workspace) (file : SourceFile) :
    (w.symbolsOf file).exports.length ≤ w.linkCount := by
  rcases w.symbolsOf_eq_or_mem file with hempty | hmem
  · rw [hempty]
    exact Nat.zero_le _
  · have hle : (w.symbolsOf file).exports.length ≤
        (w.symbols.toList.flatMap FileSymbols.exports).length := by
      rw [List.length_flatMap]
      exact List.le_sum_of_mem (List.mem_map.mpr ⟨_, hmem, rfl⟩)
    rw [linkCount]
    omega

/-- A place has at most two steps for every link. -/
theorem length_exportSteps_le (w : Workspace) (space : NameSpace) (file : SourceFile)
    (exported : String) : (w.exportSteps space file exported).length ≤ 2 * w.linkCount := by
  have hexports := w.length_exports_le file
  have hnamed := List.length_filterMap_le (w.namedStep? space file exported)
    (w.symbolsOf file).exports
  have hhanded := List.length_filterMap_le (w.handedOnStep? file exported)
    (w.symbolsOf file).exports
  rw [exportSteps, List.length_append]
  omega

/-- An edge keeps the name or leads to a linked name. -/
theorem LeadsTo.name_mem {file target : SourceFile} {exported inner : String}
    (h : LeadsTo w space file exported target inner) :
    inner = exported ∨ inner ∈ w.linkedNames := by
  cases h with
  | imported hexport hlocal himport htarget =>
      have hlink := FileSymbols.imported_mem_linkedNames (List.mem_of_find?_eq_some himport)
      exact Or.inr (mem_linkedNames hlink)
  | reexported hexport hinner htarget =>
      have hlink := FileSymbols.fromModule_mem_linkedNames hexport
      exact Or.inr (mem_linkedNames hlink)
  | handedOn => exact Or.inl rfl

/-- The places that a search for a name can visit. -/
def searchPlaces (w : Workspace) (name : String) : Finset Place :=
  (w.program.files.map (·.id)).toFinset ×ˢ (name :: w.linkedNames).toFinset

/-- Every file is searched for at most one name more than there are links. -/
theorem card_searchPlaces_le (w : Workspace) (name : String) :
    (w.searchPlaces name).card ≤ w.program.files.length * (w.linkCount + 1) := by
  rw [searchPlaces, Finset.card_product]
  refine Nat.mul_le_mul ?_ ?_
  · exact (List.toFinset_card_le _).trans_eq (List.length_map _)
  · exact (List.toFinset_card_le _).trans (Nat.succ_le_succ w.length_linkedNames_le)

/-- The pending steps of a search for a name lead to places that it can visit. -/
def PendingPlaces (w : Workspace) (name : String) (pending : List ExportStep) : Prop :=
  ∀ file exported, .lookIn file exported ∈ pending →
    file ∈ w.program.files ∧ exported ∈ name :: w.linkedNames

/-- A pending place can be visited. -/
theorem PendingPlaces.mem_searchPlaces {name exported : String} {file : SourceFile}
    {pending : List ExportStep} (h : PendingPlaces w name (.lookIn file exported :: pending)) :
    (file.id, exported) ∈ w.searchPlaces name := by
  obtain ⟨hfile, hname⟩ := h file exported List.mem_cons_self
  rw [searchPlaces, Finset.mem_product, List.mem_toFinset, List.mem_toFinset]
  exact ⟨List.mem_map.mpr ⟨file, hfile, rfl⟩, hname⟩

/-- Opening a place leaves only places pending that can be visited. -/
theorem PendingPlaces.opened {name exported : String} {file : SourceFile}
    {pending : List ExportStep} (h : PendingPlaces w name (.lookIn file exported :: pending)) :
    PendingPlaces w name (w.exportSteps space file exported ++ pending) := by
  intro target inner hmem
  rcases List.mem_append.mp hmem with hstep | hpending
  · have hedge := lookIn_mem_exportSteps.mp hstep
    refine ⟨hedge.mem_files, ?_⟩
    rcases hedge.name_mem with heq | hlinked
    · rw [heq]
      exact (h file exported List.mem_cons_self).2
    · exact List.mem_cons_of_mem _ hlinked
  · exact h target inner (List.mem_cons_of_mem _ hpending)

/-- What a search has left to do: its pending steps, and as many steps as a place can have for each
    place that it has not visited. -/
def searchWeight (w : Workspace) (name : String) (visited : List Place)
    (pending : List ExportStep) : Nat :=
  pending.length + (2 * w.linkCount + 1) * (w.searchPlaces name \ visited.toFinset).card

/-- Opening a place lowers the weight. -/
theorem searchWeight_opened_lt {name exported : String} {file : SourceFile}
    {visited : List Place} {pending : List ExportStep}
    (h : PendingPlaces w name (.lookIn file exported :: pending))
    (hnew : (file.id, exported) ∉ visited) :
    w.searchWeight name ((file.id, exported) :: visited)
        (w.exportSteps space file exported ++ pending) <
      w.searchWeight name visited (.lookIn file exported :: pending) := by
  have hmem : (file.id, exported) ∈ w.searchPlaces name \ visited.toFinset :=
    Finset.mem_sdiff.mpr ⟨h.mem_searchPlaces, fun hv => hnew (List.mem_toFinset.mp hv)⟩
  have hcard := Finset.card_erase_lt_of_mem hmem
  have hsteps := w.length_exportSteps_le space file exported
  rw [← Finset.sdiff_insert, ← List.toFinset_cons] at hcard
  have hunits := Nat.mul_le_mul_left (2 * w.linkCount + 1) (Nat.succ_le_of_lt hcard)
  rw [Nat.mul_succ] at hunits
  rw [searchWeight, searchWeight, List.length_append, List.length_cons]
  omega

/-- With more fuel than weight the search ends by itself. -/
theorem searches_of_weight_lt (name : String) :
    ∀ (fuel : Nat) (visited : List Place) (pending : List ExportStep),
      PendingPlaces w name pending → w.searchWeight name visited pending < fuel →
      Searches w space visited pending (w.searchExports space fuel visited pending) := by
  intro fuel
  induction fuel with
  | zero => exact fun _ _ _ h => absurd h (Nat.not_lt_zero _)
  | succ fuel ih =>
      intro visited pending hplaces hweight
      cases pending with
      | nil => exact .exhausted
      | cons step pending =>
          cases step with
          | declared d => exact .found
          | lookIn file exported =>
              rw [searchExports]
              by_cases hvisited : (file.id, exported) ∈ visited
              · rw [if_pos (List.contains_iff_mem.mpr hvisited)]
                refine .skipped hvisited (ih visited pending ?_ ?_)
                · exact fun f n hmem => hplaces f n (List.mem_cons_of_mem _ hmem)
                · rw [searchWeight, List.length_cons] at hweight
                  rw [searchWeight]
                  omega
              · rw [if_neg (fun h => hvisited (List.contains_iff_mem.mp h))]
                refine .opened hvisited (ih _ _ hplaces.opened ?_)
                exact Nat.lt_of_lt_of_le (searchWeight_opened_lt hplaces hvisited)
                  (Nat.le_of_lt_succ hweight)

/-- The search from a file of the program ends within its bound. -/
theorem searches_exported? {file : SourceFile} (hfile : file ∈ w.program.files) (name : String) :
    Searches w space [] [.lookIn file name] (w.exported? space file name) := by
  refine searches_of_weight_lt name _ _ _ ?_ ?_
  · intro f n hmem
    cases List.mem_singleton.mp hmem
    exact ⟨hfile, List.mem_cons_self⟩
  · have hcard := w.card_searchPlaces_le name
    have hunits := Nat.mul_le_mul_left (2 * w.linkCount + 1) hcard
    have hbound : (2 * w.linkCount + 1) * (w.program.files.length * (w.linkCount + 1)) ≤
        (w.program.files.length + 1) * (w.linkCount + 1) * (2 * w.linkCount + 1) := by
      rw [Nat.mul_comm]
      exact Nat.mul_le_mul_right _ (Nat.mul_le_mul_right _ (Nat.le_succ _))
    rw [searchWeight, searchBound, List.toFinset_nil, Finset.sdiff_empty, List.length_singleton]
    omega

/-! ## What names resolve to -/

/-- What a file of the workspace declares lives in the world that it is looked up in. -/
theorem inWorlds_symbolsOf (w : Workspace) (file : SourceFile) :
    (w.symbolsOf file).InWorlds := by
  rcases w.symbolsOf_eq_or_mem file with hempty | hmem
  · rw [hempty]
    exact FileSymbols.inWorlds_empty
  · rw [w.symbols_eq] at hmem
    obtain ⟨source, -, hsource⟩ := List.mem_map.mp hmem
    rw [← hsource]
    exact FileSymbols.inWorlds_ofFile source

/-- A file of the workspace declares it. -/
def Declares (w : Workspace) (space : NameSpace) (d : Declaration) : Prop :=
  ∃ (source : SourceFile) (localName : String),
    (w.symbolsOf source).declared? space localName = some d

/-- What the workspace declares in a world lives there. -/
theorem Declares.livesIn {d : Declaration} (h : w.Declares space d) :
    d.node.livesIn space = true := by
  obtain ⟨source, localName, hd⟩ := h
  exact w.inWorlds_symbolsOf source _ _ _ hd

/-- What the workspace declares stands in a file of the program. -/
theorem Declares.file_mem {d : Declaration} (h : w.Declares space d) :
    d.file ∈ w.program.files := by
  obtain ⟨source, localName, hd⟩ := h
  rcases w.symbolsOf_eq_or_mem source with hempty | hmem
  · rw [hempty] at hd
    cases space <;> cases hd
  · rw [w.symbols_eq] at hmem
    obtain ⟨file, hfile, hsymbols⟩ := List.mem_map.mp hmem
    rw [← hsymbols] at hd
    rw [FileSymbols.file_of_declared? hd]
    exact hfile

/-- The end of a chain of exports is declared in the world that is searched. -/
theorem ExportChain.declares {file : SourceFile} {exported : String} {d : Declaration}
    (h : ExportChain w space file exported d) : w.Declares space d := by
  induction h with
  | @ends file _ _ hend =>
      obtain ⟨localName, -, hd⟩ := hend
      exact ⟨file, localName, hd⟩
  | leads _ _ ih => exact ih

/-- What a file of the program exports is the end of a chain of exports. -/
theorem exported?_sound {file : SourceFile} (hfile : file ∈ w.program.files) {name : String}
    {d : Declaration} (h : w.exported? space file name = some d) :
    ExportChain w space file name d := by
  rcases (searches_exported? hfile name).sound d h with hmem | ⟨f, n, hmem, hchain⟩
  · exact nomatch List.mem_singleton.mp hmem
  · cases List.mem_singleton.mp hmem
    exact hchain

/-- What a name refers to is declared in the world that the name is looked up in. -/
theorem resolve?_declares {file : SourceFile} {name : String} {d : Declaration}
    (h : w.resolve? space file name = some d) : w.Declares space d := by
  rw [resolve?] at h
  rcases Option.or_eq_some_iff.mp h with hlocal | ⟨-, himport⟩
  · exact ⟨file, name, hlocal⟩
  · obtain ⟨i, -, hi⟩ := Option.bind_eq_some_iff.mp himport
    rw [imported?] at hi
    rcases Option.or_eq_some_iff.mp hi with hexported | ⟨-, hunexported⟩
    · obtain ⟨target, htarget, hd⟩ := Option.bind_eq_some_iff.mp hexported
      exact (exported?_sound (moduleFile?_mem htarget) hd).declares
    · rw [unexported?] at hunexported
      split at hunexported
      · exact nomatch hunexported
      · obtain ⟨path, -, hpath⟩ := List.exists_of_findSome?_eq_some hunexported
        obtain ⟨source, -, hsource⟩ := Option.bind_eq_some_iff.mp hpath
        exact ⟨source, _, hsource⟩

/-- What a qualified name refers to is declared as a type. -/
theorem qualifiedType?_declares {file : SourceFile} {outer name : String} {d : Declaration}
    (h : w.qualifiedType? file outer name = some d) : w.Declares .type d := by
  rw [qualifiedType?] at h
  obtain ⟨i, -, hi⟩ := Option.bind_eq_some_iff.mp h
  obtain ⟨-, -, hguarded⟩ := Option.bind_eq_some_iff.mp hi
  obtain ⟨target, htarget, hd⟩ := Option.bind_eq_some_iff.mp hguarded
  exact (exported?_sound (moduleFile?_mem htarget) hd).declares

/-- **Export resolution**: on every graph of modules the search of a file for an exported name ends
    by itself, finds a declaration exactly if a finite chain of exports ends at one, and finds the
    end of such a chain; values and types are of their own kinds of declarations. -/
theorem exports_resolve_to_ends_of_chains (w : Workspace) (space : NameSpace) (file : SourceFile)
    (hfile : file ∈ w.program.files) (name : String) :
    Searches w space [] [.lookIn file name] (w.exported? space file name) ∧
      ((∃ d, w.exported? space file name = some d) ↔ ∃ d, ExportChain w space file name d) ∧
      (∀ d, w.exported? space file name = some d → ExportChain w space file name d) ∧
      (∀ localName d, w.value? file localName = some d →
        d.node.kindName ∈ ["class", "enum", "function", "variable"]) ∧
      ∀ localName d, w.type? file localName = some d →
        d.node.kindName ∈ ["class", "enum", "interface", "type alias"] := by
  have hsearch : Searches w space [] [.lookIn file name] (w.exported? space file name) :=
    searches_exported? hfile name
  refine ⟨hsearch, ⟨?_, ?_⟩, fun d hd => exported?_sound hfile hd, ?_, ?_⟩
  · rintro ⟨d, hd⟩
    exact ⟨d, exported?_sound hfile hd⟩
  · rintro ⟨d, hchain⟩
    cases hfound : w.exported? space file name with
    | some found => exact ⟨found, rfl⟩
    | none =>
        rw [hfound] at hsearch
        exact absurd hchain (hsearch.complete hfile d)
  · exact fun _ _ hd => DeclarationNode.kindName_of_value (resolve?_declares hd).livesIn
  · exact fun _ _ hd => DeclarationNode.kindName_of_type (resolve?_declares hd).livesIn

/-- The file of a program of one file. -/
theorem placed_mem_files (root : Path) (parsed : ParsedFile) (conventions : Conventions) :
    Program.placed root parsed 0 ∈
      (ofProgram (.ofParsed root [parsed]) conventions).program.files := by
  simp [ofProgram, Program.ofParsed]

/-- The symbols of the file of a program of one file. -/
theorem symbolsOf_placed (root : Path) (parsed : ParsedFile) (conventions : Conventions) :
    (ofProgram (.ofParsed root [parsed]) conventions).symbolsOf (Program.placed root parsed 0) =
      FileSymbols.ofFile (Program.placed root parsed 0) := by
  simp [ofProgram, Program.ofParsed, symbolsOf, Program.placed]

/-- In a program of one file, a name of a type that the file declares refers to its declaration. -/
theorem type?_placed (root : Path) (parsed : ParsedFile) (conventions : Conventions)
    {name : String} {d : Declaration}
    (h : (FileSymbols.ofFile (Program.placed root parsed 0)).declared? .type name = some d) :
    (ofProgram (.ofParsed root [parsed]) conventions).type? (Program.placed root parsed 0) name =
      some d := by
  rw [type?, resolve?, symbolsOf_placed]
  exact Option.or_eq_some_iff.mpr (Or.inl h)

/-- A module that exports its own class under another name, and everything of a module that is not
    there. -/
def renamingModule : ParsedFile :=
  { path := ⟨[.root, .name "cards.ts"]⟩
    module :=
      ⟨[ .exportAll ⟨"./missing", true⟩ none,
         .classDecl "Card" ⟨⟨30, 2⟩, [], [], none, [], [], []⟩,
         .exportNames [⟨"Badge", "Card"⟩] none none ], []⟩
    discoverable := true }

/-- The file of that module. -/
def renamingFile : SourceFile :=
  Program.placed ⟨[.root]⟩ renamingModule 0

/-- The workspace of that file alone. -/
def renamingWorkspace : Workspace :=
  .ofProgram (.ofParsed ⟨[.root]⟩ [renamingModule]) {}

/-- The class is found under the name that it is exported by. -/
theorem badge_resolves_to_card :
    renamingFile ∈ renamingWorkspace.program.files ∧
      ∃ d, renamingWorkspace.exported? .value renamingFile "Badge" = some d := by
  have hfile : renamingFile ∈ renamingWorkspace.program.files := placed_mem_files _ _ _
  have hsymbols : renamingWorkspace.symbolsOf renamingFile = FileSymbols.ofFile renamingFile :=
    symbolsOf_placed _ _ _
  obtain ⟨card, hcard⟩ :
      ∃ d, (renamingWorkspace.symbolsOf renamingFile).declared? .value "Card" = some d := by
    rw [hsymbols]
    exact ⟨_, rfl⟩
  refine ⟨hfile, (exports_resolve_to_ends_of_chains _ _ _ hfile "Badge").2.1.mpr ?_⟩
  refine ⟨card, .ends ⟨"Card", ?_, hcard⟩⟩
  rw [hsymbols]
  exact List.mem_cons_of_mem _ List.mem_cons_self

end Workspace

end ElementCatalog
