import ElementCatalog.Program.Resolution
import ElementCatalog.Project.Loading
import ElementCatalog.Proofs.FileOrder
import ElementCatalog.Text.Splitting

/-!
# Targets of specifiers — the file that loading follows and the file that names are looked up in

Loading follows a specifier to the first of its fallback candidates that is there; the exports of a
module are looked up through its module candidates only.  Toward: where the followed file has been
parsed, the two agree exactly if it is a module candidate, and otherwise the lookup finds no file at
all.  The route:

* what a round of loading parses is what it can read, so every file of a loaded program is on the
  disk;
* so no candidate before the followed file is in the program;
* the fallback candidates are the module candidates and, behind them, the sources of an emitted
  file.
-/

namespace ElementCatalog

open Text (splitOn_slash splitOn_dot)

/-- What can be read is a file. -/
theorem Disk.isFile_of_read {d : Disk} {path text : String} (h : d.read path = .ok text) :
    d.isFile path = true := by
  rw [Disk.read] at h
  rw [Disk.isFile, Disk.find?]
  cases hfollow : d.follow path with
  | error fault =>
      rw [hfollow] at h
      cases h
  | ok trail =>
      rw [hfollow] at h
      change (Except.ok trail >>= _) = Except.ok text at h
      simp only [bind, Except.bind] at h
      cases hhere : d.here trail with
      | file content =>
          dsimp only
          rw [hhere]
      | directory entries =>
          rw [hhere] at h
          cases h

namespace Program

/-! ## What is loaded -/

section Loaded

variable {parse : ModuleParser} {d : Disk} {root : Path}

/-- A parsed file has the path that was asked for, and is on the disk. -/
theorem readPending_ok {pending : PendingFile} {parsed : ParsedFile}
    (h : readPending parse d root pending = .ok parsed) :
    parsed.path = pending.path ∧ d.isFile parsed.path.text = true := by
  rw [readPending] at h
  cases hread : d.read pending.path.text with
  | error fault =>
      rw [hread] at h
      cases h
  | ok text =>
      rw [hread] at h
      dsimp only at h
      cases hparse : parse pending.path.text text with
      | none =>
          rw [hparse] at h
          cases h
      | some module =>
          rw [hparse] at h
          cases h
          exact ⟨rfl, Disk.isFile_of_read hread⟩

/-- Loading a file adds what it is parsed to. -/
theorem loadFile_parsed (state : Loading) (pending : PendingFile) :
    (loadFile parse d root state pending).1.parsed =
      state.parsed ++ (readPending parse d root pending).toOption.toList := by
  rw [loadFile]
  cases readPending parse d root pending with
  | error diagnostic => exact (List.append_nil _).symm
  | ok parsed => rfl

/-- Steps that each add some parsed files add them all. -/
theorem foldl_parsed (add : Loading × List PendingFile → PendingFile → Loading × List PendingFile)
    (new : PendingFile → List ParsedFile)
    (hadd : ∀ acc file, (add acc file).1.parsed = acc.1.parsed ++ new file)
    (round : List PendingFile) :
    ∀ acc, (round.foldl add acc).1.parsed = acc.1.parsed ++ round.flatMap new := by
  induction round with
  | nil => exact fun _ => (List.append_nil _).symm
  | cons pending rest ih =>
      intro acc
      rw [List.foldl_cons, ih, hadd, List.flatMap_cons, List.append_assoc]

/-- A round adds what its files are parsed to. -/
theorem loadRound_parsed (state : Loading) (round : List PendingFile) :
    (loadRound parse d root state round).1.parsed =
      state.parsed ++
        round.flatMap fun pending => (readPending parse d root pending).toOption.toList :=
  foldl_parsed _ _ (fun acc file => loadFile_parsed acc.1 file) round (state, [])

/-- One round more. -/
theorem loadRounds_cons (fuel : Nat) (state : Loading) (pending : PendingFile)
    (rest : List PendingFile) :
    loadRounds parse d root (fuel + 1) state (pending :: rest) =
      loadRounds parse d root fuel (loadRound parse d root state (pending :: rest)).1
        (loadRound parse d root state (pending :: rest)).2 :=
  rfl

/-- What has been parsed stays parsed. -/
theorem mem_parsed_loadRounds {parsed : ParsedFile} (fuel : Nat) : ∀ {state : Loading}
    {round : List PendingFile}, parsed ∈ state.parsed →
      parsed ∈ (loadRounds parse d root fuel state round).parsed := by
  induction fuel with
  | zero => exact fun h => h
  | succ fuel ih =>
      intro state round h
      cases round with
      | nil => exact h
      | cons pending rest =>
          rw [loadRounds_cons]
          refine ih ?_
          rw [loadRound_parsed]
          exact List.mem_append_left _ h

/-- What is parsed in some rounds was parsed before or is a file that could be read. -/
theorem of_mem_parsed_loadRounds {parsed : ParsedFile} (fuel : Nat) : ∀ {state : Loading}
    {round : List PendingFile}, parsed ∈ (loadRounds parse d root fuel state round).parsed →
      parsed ∈ state.parsed ∨ ∃ pending, readPending parse d root pending = .ok parsed := by
  induction fuel with
  | zero => exact fun h => Or.inl h
  | succ fuel ih =>
      intro state round h
      cases round with
      | nil => exact Or.inl h
      | cons pending rest =>
          rw [loadRounds_cons] at h
          rcases ih h with hround | hread
          · rw [loadRound_parsed] at hround
            rcases List.mem_append.mp hround with hbefore | hnew
            · exact Or.inl hbefore
            · obtain ⟨file, -, hfile⟩ := List.mem_flatMap.mp hnew
              refine Or.inr ⟨file, ?_⟩
              cases hread : readPending parse d root file with
              | error diagnostic =>
                  rw [hread] at hfile
                  cases hfile
              | ok read =>
                  rw [hread] at hfile
                  rw [List.mem_singleton.mp hfile]
          · exact Or.inr hread

/-- The files of a loaded program are files of the disk. -/
theorem isFile_of_load {scanned : List Path} {path : Path} {file : SourceFile}
    (h : (load d root scanned).1.file? path = some file) : d.isFile path.text = true := by
  rw [← path_of_file? h]
  obtain ⟨parsed, hparsed, place, rfl⟩ :=
    mem_files_ofParsed (List.mem_reverse.mp (List.mem_of_find?_eq_some h))
  rcases of_mem_parsed_loadRounds _ hparsed with hnone | ⟨pending, hread⟩
  · cases hnone
  · exact (readPending_ok hread).2

/-- A scanned file that can be read and parsed is in the program. -/
theorem exists_file?_of_scanned {scanned : List Path} {path : Path} {parsed : ParsedFile}
    (hscanned : path ∈ distinct (scanned.map Path.normalize))
    (hread : readPending Source.Module.parse? d root.normalize ⟨path, !path.isGenerated⟩ =
      .ok parsed) :
    ∃ file, (load d root scanned).1.file? path = some file := by
  have hparsed : parsed ∈ (loadRounds Source.Module.parse? d root.normalize (roundBound d)
      { seen := distinct (scanned.map Path.normalize) }
      ((distinct (scanned.map Path.normalize)).map fun p => ⟨p, !p.isGenerated⟩)).parsed := by
    cases hfirst : distinct (scanned.map Path.normalize) with
    | nil =>
        rw [hfirst] at hscanned
        cases hscanned
    | cons first rest =>
        rw [List.map_cons, roundBound, loadRounds_cons]
        refine mem_parsed_loadRounds _ ?_
        rw [loadRound_parsed]
        refine List.mem_append_right _ (List.mem_flatMap.mpr ⟨⟨path, !path.isGenerated⟩, ?_, ?_⟩)
        · rw [← List.map_cons (f := fun p : Path => (⟨p, !p.isGenerated⟩ : PendingFile)), ← hfirst]
          exact List.mem_map.mpr ⟨path, hscanned, rfl⟩
        · rw [hread]
          exact List.mem_singleton.mpr rfl
  obtain ⟨place, hplace⟩ := exists_placed root.normalize hparsed
  obtain ⟨found, hfound⟩ := exists_file? hplace
  rw [show (placed root.normalize parsed place).path = path from (readPending_ok hread).1] at hfound
  exact ⟨found, hfound⟩

end Loaded

end Program

/-! ## What a specifier may mean -/

namespace Path

/-- Adding new paths one after another leaves the paths before them, and those that are added were
    not there. -/
theorem foldl_addNew {α : Type} (path : α → Path) (items : List α) : ∀ paths : List Path,
    ∃ added, items.foldl (fun paths item => addNew paths (path item)) paths = paths ++ added ∧
      ∀ p ∈ added, p ∉ paths ∧ ∃ item ∈ items, p = path item := by
  induction items with
  | nil => exact fun paths => ⟨[], (List.append_nil _).symm, fun _ hp => absurd hp List.not_mem_nil⟩
  | cons item rest ih =>
      intro paths
      by_cases hold : paths.contains (path item) = true
      · obtain ⟨added, hfold, hadded⟩ := ih paths
        refine ⟨added, ?_, fun p hp => ?_⟩
        · rw [List.foldl_cons, addNew, if_pos hold, hfold]
        · obtain ⟨hnew, i, hi, heq⟩ := hadded p hp
          exact ⟨hnew, i, List.mem_cons_of_mem _ hi, heq⟩
      · obtain ⟨added, hfold, hadded⟩ := ih (paths ++ [path item])
        refine ⟨path item :: added, ?_, fun p hp => ?_⟩
        · rw [List.foldl_cons, addNew, if_neg hold, hfold, List.append_assoc]
          rfl
        · rcases List.mem_cons.mp hp with rfl | htail
          · rw [List.contains_iff_mem] at hold
            exact ⟨hold, item, List.mem_cons_self, rfl⟩
          · obtain ⟨hnew, i, hi, heq⟩ := hadded p htail
            exact ⟨fun hmem => hnew (List.mem_append_left _ hmem), i,
              List.mem_cons_of_mem _ hi, heq⟩

/-- A path is a source of the emitted file that a specifier names. -/
def IsSourceOf (fromFile : Path) (specifier : String) (p : Path) : Prop :=
  ∃ base, specifierBase? fromFile specifier = some base ∧
    ∃ e ∈ sourceExtensions base.extension?, p = base.withExtension e

/-- Behind the module candidates come sources of the emitted file that are none of them. -/
theorem fallbackCandidates_eq (fromFile : Path) (specifier : String) :
    ∃ sources, fallbackCandidates fromFile specifier =
        moduleCandidates fromFile specifier ++ sources ∧
      ∀ p ∈ sources, p ∉ moduleCandidates fromFile specifier ∧ IsSourceOf fromFile specifier p := by
  rw [fallbackCandidates]
  cases hbase : specifierBase? fromFile specifier with
  | none =>
      exact ⟨[], (List.append_nil _).symm, fun _ hp => absurd hp List.not_mem_nil⟩
  | some base =>
      obtain ⟨sources, hfold, hsources⟩ := foldl_addNew base.withExtension
        (sourceExtensions base.extension?) (moduleCandidates fromFile specifier)
      refine ⟨sources, hfold, fun p hp => ?_⟩
      obtain ⟨hnew, hsource⟩ := hsources p hp
      exact ⟨hnew, base, hbase, hsource⟩

end Path

/-! ## Following and looking up -/

namespace Workspace

section Targets

variable {d : Disk} {root : Path} {scanned seen : List Path} {w : Workspace}
  {file target : SourceFile} {specifier : String} {path : Path}

/-- No candidate before the followed file is in the program. -/
theorem findSome?_of_followed {β : Type} (hw : w.program = (Program.load d root scanned).1)
    (hfollowed : Program.target? d seen file.path specifier = some path)
    (htarget : w.program.file? path = some target) (look : SourceFile → Option β) {result : β}
    (hresult : look target = some result) :
    (Path.fallbackCandidates file.path specifier).findSome?
      (fun candidate => (w.program.file? candidate).bind look) = some result := by
  obtain ⟨-, before, after, hcandidates, hbefore⟩ := List.find?_eq_some_iff_append.mp hfollowed
  have hskipped : before.findSome? (fun candidate => (w.program.file? candidate).bind look) =
      none := by
    refine List.findSome?_eq_none_iff.mpr fun candidate hmem => ?_
    cases hcandidate : w.program.file? candidate with
    | none => rfl
    | some found =>
        -- A file of the program is on the disk, so it would have been followed.
        rw [hw] at hcandidate
        have hfile := Program.isFile_of_load hcandidate
        have hnot := hbefore candidate hmem
        rw [hfile, Bool.or_true] at hnot
        exact absurd hnot Bool.false_ne_true
  rw [hcandidates, List.findSome?_append, hskipped, Option.none_or, List.findSome?_cons, htarget]
  dsimp only [Option.bind_some]
  rw [hresult]

/-- **Targets of specifiers**: a specifier that loading follows to a parsed file is looked up there
    exactly if that file is one of its module candidates.  Otherwise the file is a source that the
    specifier names by what it is emitted to, and the lookup finds no file. -/
theorem followed_file_looked_up_iff (hw : w.program = (Program.load d root scanned).1)
    (hfollowed : Program.target? d seen file.path specifier = some path)
    (htarget : w.program.file? path = some target) :
    (w.moduleFile? file specifier = some target ↔
        path ∈ Path.moduleCandidates file.path specifier) ∧
      (path ∉ Path.moduleCandidates file.path specifier →
        w.moduleFile? file specifier = none ∧ Path.IsSourceOf file.path specifier path) := by
  obtain ⟨sources, hcandidates, hsources⟩ := Path.fallbackCandidates_eq file.path specifier
  have hfirst := findSome?_of_followed hw hfollowed htarget some rfl
  simp only [Option.bind_fun_some] at hfirst
  rw [hcandidates, List.findSome?_append] at hfirst
  change (w.moduleFile? file specifier).or _ = some target at hfirst
  have hfound : ∀ found, w.moduleFile? file specifier = some found →
      found = target ∧ path ∈ Path.moduleCandidates file.path specifier := by
    intro found h
    rw [h, Option.some_or] at hfirst
    obtain ⟨candidate, hmem, hcandidate⟩ := List.exists_of_findSome?_eq_some h
    have heq : found = target := Option.some.inj hfirst
    rw [← Program.path_of_file? htarget, ← heq, Program.path_of_file? hcandidate]
    exact ⟨rfl, hmem⟩
  refine ⟨⟨fun h => (hfound target h).2, fun hmem => ?_⟩, fun hnot => ⟨?_, ?_⟩⟩
  · cases h : w.moduleFile? file specifier with
    | some found => rw [(hfound found h).1]
    | none =>
        have hnone := List.findSome?_eq_none_iff.mp h path hmem
        rw [htarget] at hnone
        cases hnone
  · cases h : w.moduleFile? file specifier with
    | none => rfl
    | some found => exact absurd (hfound found h).2 hnot
  · have hmem : path ∈ Path.fallbackCandidates file.path specifier :=
      List.mem_of_find?_eq_some hfollowed
    rw [hcandidates] at hmem
    rcases List.mem_append.mp hmem with hmodule | hsource
    · exact absurd hmodule hnot
    · exact (hsources path hsource).2

/-- Where the lookup does not find a module, exports from it lead nowhere, and neither does the
    namespace that it is imported as. -/
theorem exports_of_unfound (h : w.moduleFile? file specifier = none) :
    (∀ space exported outer imported,
        w.namedStep? space file exported (.fromModule outer imported specifier) = none) ∧
      (∀ exported, w.handedOnStep? file exported (.allOf specifier) = none) ∧
      ∀ outer name i, (w.symbolsOf file).import? outer = some i → i.specifier = specifier →
        w.qualifiedType? file outer name = none := by
  refine ⟨fun space exported outer imported => ?_, fun exported => ?_, fun outer name i hi hs => ?_⟩
  · rw [namedStep?, h, Option.map_none, ite_self]
  · rw [handedOnStep?, h, Option.map_none, ite_self]
  · rw [qualifiedType?, hi, Option.bind_eq_bind, Option.bind_some, hs, h]
    cases hstar : i.imported == "*" <;> rfl

/-- An import by name finds what the followed file itself declares under the name, also where the
    lookup finds no file. -/
theorem unexported?_of_followed (hw : w.program = (Program.load d root scanned).1) {i : Import}
    (hfollowed : Program.target? d seen file.path i.specifier = some path)
    (htarget : w.program.file? path = some target) {space : NameSpace} {declared : Declaration}
    (hstar : i.imported ≠ "*") (hdefault : i.imported ≠ "default")
    (hdeclared : (w.symbolsOf target).declared? space i.imported = some declared) :
    w.unexported? space file i = some declared := by
  rw [unexported?, if_neg hstar]
  simp only [if_neg hdefault]
  exact findSome?_of_followed hw hfollowed htarget
    (fun found => (w.symbolsOf found).declared? space i.imported) hdeclared

end Targets

/-! ## A barrel in the emitted spelling -/

/-- A disk with a module that declares a class, and a module that hands it on by the name of the
    emitted file. -/
def barrelDisk : Disk :=
  { root := .directory
      [ ("card.ts", .file (some "export class Card extends HTMLElement {}")),
        ("lib.ts", .file (some "export * from \"./card.js\";")) ]
    workingDirectory := "/" }

/-- The module that declares the class. -/
def cardPath : Path :=
  ⟨[.root, .name "card.ts"]⟩

/-- The module that hands it on. -/
def barrelPath : Path :=
  ⟨[.root, .name "lib.ts"]⟩

/-- The workspace of both modules. -/
def barrelWorkspace : Workspace :=
  .ofProgram (Program.load barrelDisk ⟨[.root]⟩ [barrelPath, cardPath]).1 {}

/-- A module of the barrel whose text can be read and parsed is in the program. -/
theorem barrel_loaded (path : Path) {text : String} {module : Source.Module}
    (hscanned : path ∈ Program.distinct ([barrelPath, cardPath].map Path.normalize))
    (hread : barrelDisk.read path.text = .ok text)
    (hparse : Source.Module.parse? path.text text = some module) :
    ∃ file, barrelWorkspace.program.file? path = some file := by
  have hpending : Program.readPending Source.Module.parse? barrelDisk (Path.normalize ⟨[.root]⟩)
      ⟨path, !path.isGenerated⟩ = .ok ⟨path, module, !path.isGenerated⟩ := by
    rw [Program.readPending, hread]
    dsimp only
    rw [hparse]
  exact Program.exists_file?_of_scanned hscanned hpending

/-- Loading follows the barrel to the module, which it parses, but the names that the barrel hands
    on are looked up nowhere. -/
theorem barrel_followed_but_not_looked_up :
    ∃ barrel card, barrelWorkspace.program.file? barrelPath = some barrel ∧
      barrelWorkspace.program.file? cardPath = some card ∧
      Program.target? barrelDisk [barrelPath, cardPath] barrel.path "./card.js" = some cardPath ∧
      barrelWorkspace.moduleFile? barrel "./card.js" = none := by
  have hbarrelText : barrelDisk.read barrelPath.text = .ok "export * from \"./card.js\";" := by
    simp only [Disk.read, Disk.follow, splitOn_slash]
    decide +kernel
  have hcardText :
      barrelDisk.read cardPath.text = .ok "export class Card extends HTMLElement {}" := by
    simp only [Disk.read, Disk.follow, splitOn_slash]
    decide +kernel
  obtain ⟨barrel, hbarrel⟩ := barrel_loaded barrelPath (by decide) hbarrelText rfl
  obtain ⟨card, hcard⟩ := barrel_loaded cardPath (by decide) hcardText rfl
  have hpath : barrel.path = barrelPath := Program.path_of_file? hbarrel
  have hfollowed : Program.target? barrelDisk [barrelPath, cardPath] barrel.path "./card.js" =
      some cardPath := by
    rw [hpath]
    simp only [Program.target?, Path.fallbackCandidates, Path.moduleCandidates,
      Path.specifierBase?, Path.resolveFrom, Path.ofText, Path.extension?, Path.withExtension,
      Path.splitName, Disk.isFile, Disk.find?, Disk.follow, splitOn_slash, splitOn_dot]
    decide +kernel
  have hnot : cardPath ∉ Path.moduleCandidates barrel.path "./card.js" := by
    rw [hpath]
    simp only [Path.moduleCandidates, Path.specifierBase?, Path.resolveFrom, Path.ofText,
      splitOn_slash]
    decide +kernel
  exact ⟨barrel, card, hbarrel, hcard, hfollowed,
    ((followed_file_looked_up_iff rfl hfollowed hcard).2 hnot).1⟩

end Workspace

end ElementCatalog
