import ElementCatalog.Proofs.ExtractionOutcomes
import ElementCatalog.Proofs.LoadedClosure
import ElementCatalog.Proofs.ScannedLocations

/-!
# Loaded assets — what importing a file that is no source does

A scan lists sources only, but loading reads whatever file a specifier leads to.  Toward: a file
without the extension of a source is read like a module exactly if a module of the program imports
it.  If it parses it is in the program, and otherwise a warning reports it, which fails a strict
extraction.  The route:

* the candidates of a specifier that it does not name itself have the extension of a source, but for
  hidden files (`isSource_of_mem_fallbackCandidates`), so it leads to an asset only by naming it;
* what is reached without having been scanned is what the program imports (`reached_iff_imports`);
* all that is reached is parsed or reported, and reports are warnings (`isWarning_of_mem_loaded`).
-/

namespace ElementCatalog

/-! ## Names of sources -/

namespace Path

/-- An extension behind a name is read back. -/
theorem splitName_append {stem e : String} (hstem : stem ≠ "") (he : e.splitOn "." = [e]) :
    splitName (stem ++ "." ++ e) = (stem, some e) := by
  have hpieces : (stem ++ "." ++ e).splitOn "." = stem.splitOn "." ++ [e] := by
    rw [Text.splitOn_dot_append, he]
  have hne : 0 < (stem.splitOn ".").length := by
    rw [Text.splitOn_dot, List.length_map, List.length_pos_iff]
    exact Text.splitWhere_ne_nil _ _
  rw [splitName, hpieces, List.getLast?_concat]
  dsimp only
  rw [List.dropLast_concat, Text.intercalate_splitOn_dot, if_neg]
  rw [Bool.or_eq_true, decide_eq_true_iff, decide_eq_true_iff, List.length_append,
    List.length_singleton, not_or]
  exact ⟨by omega, hstem⟩

/-- A name that is cut is cut behind something. -/
theorem stem_ne_empty {name e : String} (h : (splitName name).2 = some e) :
    (splitName name).1 ≠ "" := by
  rw [splitName] at h ⊢
  cases hlast : (name.splitOn ".").getLast? with
  | none =>
      rw [hlast] at h
      cases h
  | some last =>
      rw [hlast] at h
      dsimp only at h ⊢
      split at h
      · cases h
      · rename_i hcut
        rw [if_neg hcut]
        intro hempty
        rw [Bool.or_eq_true, decide_eq_true_iff, decide_eq_true_iff] at hcut
        exact hcut (Or.inr hempty)

/-- An extension that is tried is that of a source, or that of its declarations. -/
def IsTried (e : String) : Prop :=
  e ∈ sourceFileExtensions ∨ ∃ kind ∈ sourceFileExtensions, e = "d." ++ kind

/-- The extensions that specifiers leave out are tried, and so are those of emitted files. -/
theorem isTried_extensions (emitted : Option String) :
    (∀ e ∈ moduleExtensions, IsTried e) ∧ ∀ e ∈ sourceExtensions emitted, IsTried e := by
  constructor
  · unfold IsTried
    decide
  · unfold IsTried sourceExtensions
    split <;> decide

/-- A file whose name has more than an extension that is tried is a source. -/
theorem isSource_of_fileName {p : Path} {stem e : String} (hstem : stem ≠ "") (he : IsTried e)
    (h : p.fileName? = some (stem ++ "." ++ e)) : p.isSource = true := by
  have hplain : ∀ kind ∈ sourceFileExtensions, kind.splitOn "." = [kind] := by
    simp only [Text.splitOn_dot]
    decide +kernel
  have hsource {stem kind : String} (hstem : stem ≠ "") (hkind : kind ∈ sourceFileExtensions)
      (h : p.fileName? = some (stem ++ "." ++ kind)) : p.isSource = true := by
    rw [isSource, extension?, h, Option.bind_some, splitName_append hstem (hplain kind hkind)]
    exact List.contains_iff_mem.mpr hkind
  rcases he with hkind | ⟨kind, hkind, rfl⟩
  · exact hsource hstem hkind h
  · -- The mark of declarations belongs to the name.
    refine @hsource (stem ++ ".d") _ ?_ hkind ?_
    · intro hempty
      exact hstem (String.append_eq_empty_iff.mp hempty).1
    · rw [h]
      simp only [String.append_assoc]
      rfl

/-- The last name of a path. -/
theorem fileName?_concat (front : List PathComponent) (n : String) :
    (⟨front ++ [.name n]⟩ : Path).fileName? = some n := by
  rw [fileName?, List.getLast?_concat]

/-- Normalization leaves the name of a file. -/
theorem fileName?_normalize {p : Path} {n : String} (h : p.fileName? = some n) :
    p.normalize.fileName? = some n := by
  obtain ⟨components⟩ := p
  rcases List.eq_nil_or_concat' components with rfl | ⟨front, last, rfl⟩
  · cases h
  · rw [fileName?, List.getLast?_concat] at h
    cases last with
    | name text =>
        cases h
        rw [normalize, List.foldl_append]
        exact fileName?_concat _ _
    | root | here | up => cases h

/-- Normalization leaves sources. -/
theorem isSource_normalize {p : Path} (h : p.isSource = true) : p.normalize.isSource = true := by
  rw [isSource, extension?] at h ⊢
  cases hname : p.fileName? with
  | none =>
      rw [hname] at h
      cases h
  | some n =>
      rw [fileName?_normalize hname]
      rw [hname] at h
      exact h

/-- What a specifier may mean without naming it is a source, or hidden: an extension is its whole
    name. -/
theorem isSource_of_mem_fallbackCandidates {fromFile base p : Path} {specifier : String}
    (hbase : specifierBase? fromFile specifier = some base)
    (h : p ∈ fallbackCandidates fromFile specifier) :
    p = base ∨ p.isSource = true ∨ ∃ e ∈ moduleExtensions, p.fileName? = some ("." ++ e) := by
  have hnormal := specifierBase?_isNormal hbase
  obtain ⟨htried, -⟩ := isTried_extensions none
  obtain ⟨sources, heq, hsources⟩ := fallbackCandidates_eq fromFile specifier
  rw [heq, moduleCandidates, hbase] at h
  rcases List.mem_append.mp h with hmodule | hemitted
  · rcases List.mem_append.mp hmodule with hmodule | hindex
    · rcases List.mem_cons.mp hmodule with rfl | happended
      · exact Or.inl rfl
      · obtain ⟨e, he, rfl⟩ := List.mem_map.mp happended
        rw [String.append_assoc]
        obtain ⟨directory, stem, -, -, hpath⟩ :=
          hnormal.exists_ofText_append (moduleExtensions_endings e he).1
        rw [hpath]
        have hname := fileName?_concat directory.components (stem ++ ("." ++ e))
        by_cases hstem : stem = ""
        · rw [hstem, String.empty_append] at hname ⊢
          exact Or.inr (Or.inr ⟨e, he, hname⟩)
        · rw [← String.append_assoc] at hname ⊢
          exact Or.inr (Or.inl (isSource_of_fileName hstem (htried e he) hname))
    · obtain ⟨e, he, rfl⟩ := List.mem_map.mp hindex
      have hindexName : IsName ("index." ++ e) := (moduleExtensions_endings e he).2.isName
      refine Or.inr (Or.inl (isSource_of_fileName (show "index" ≠ "" by decide) (htried e he) ?_))
      rw [hindexName.ofText_joinText]
      exact fileName?_concat _ _
  · obtain ⟨-, base', hbase', e, he, rfl⟩ := hsources p hemitted
    rw [hbase] at hbase'
    cases hbase'
    have hextension : ∃ x, base.extension? = some x := by
      cases hx : base.extension? with
      | none =>
          rw [hx] at he
          cases he
      | some x => exact ⟨x, rfl⟩
    obtain ⟨x, hx⟩ := hextension
    rcases hnormal.cases_last with hstart | ⟨directory, last, -, -, rfl⟩
    · obtain ⟨components⟩ := base
      simp only [starts, List.mem_cons, List.not_mem_nil, or_false] at hstart
      rcases hstart with rfl | rfl | rfl | rfl <;> cases hx
    · rw [extension?, fileName?_concat, Option.bind_some] at hx
      refine Or.inr (Or.inl (isSource_of_fileName (stem_ne_empty hx)
        ((isTried_extensions _).2 e he) ?_))
      rw [withExtension, List.getLast?_concat]
      exact fileName?_concat _ _

end Path

/-! ## Imported files -/

namespace Program

variable {parse : ModuleParser} {d : Disk} {root p : Path} {scanned : List Path}

/-- A module of the program imports or exports from the file at a path: the first candidate of a
    relative specifier that was scanned or is there. -/
def Imports (d : Disk) (scanned : List Path) (program : Program) (p : Path) : Prop :=
  ∃ file ∈ program.files, ∃ specifier ∈ specifiers file.module,
    target? d (scanned.map Path.normalize) file.path specifier = some p

/-- A specifier leads to the file that it names. -/
theorem target?_eq_some_of_isFile {seen : List Path} {source base : Path} {specifier : String}
    (hbase : Path.specifierBase? source specifier = some base) (h : d.isFile base.text = true) :
    target? d seen source specifier = some base := by
  obtain ⟨sources, heq, -⟩ := Path.fallbackCandidates_eq source specifier
  rw [target?, heq, Path.moduleCandidates, hbase]
  exact List.find?_cons_of_pos (by rw [h, Bool.or_true])

/-- A specifier leads to an asset only by naming it, unless the asset is hidden. -/
theorem eq_base_of_target? {seen : List Path} {source : Path} {specifier : String}
    (h : target? d seen source specifier = some p) (hasset : p.isSource = false) :
    Path.specifierBase? source specifier = some p ∨
      ∃ e ∈ Path.moduleExtensions, p.fileName? = some ("." ++ e) := by
  have hmem : p ∈ Path.fallbackCandidates source specifier := List.mem_of_find?_eq_some h
  cases hbase : Path.specifierBase? source specifier with
  | none =>
      rw [Path.fallbackCandidates, Path.moduleCandidates, hbase] at hmem
      cases hmem
  | some base =>
      rcases Path.isSource_of_mem_fallbackCandidates hbase hmem with rfl | hsource | hhidden
      · exact Or.inl rfl
      · rw [hasset] at hsource
        cases hsource
      · exact Or.inr hhidden

/-- What loading leaves is a closure. -/
theorem isClosureOf_loadWith (parse : ModuleParser) (d : Disk) (root : Path) (scanned : List Path) :
    IsClosureOf parse d root.normalize scanned (loadWith parse d root scanned).1
      (loadWith parse d root scanned).2 := by
  obtain ⟨final, done, hend, hnodup, hmem, hparsed, hdiagnostics⟩ :=
    exists_loaded parse d root.normalize scanned
  obtain ⟨-, hfirst⟩ := distinct_nodup_and_mem (scanned.map Path.normalize)
  show IsClosureOf parse d root.normalize scanned
    (ofParsed root.normalize (loadedWithin parse d root.normalize scanned (roundBound d)).parsed)
    (loadedWithin parse d root.normalize scanned (roundBound d)).diagnostics
  rw [hend _ (Nat.le_refl _), hparsed, hdiagnostics]
  exact isClosureOf_loaded hnodup hmem hfirst

/-- What loading reports are warnings. -/
theorem isWarning_of_mem_loadWith {diagnostic : Diagnostic}
    (h : diagnostic ∈ (loadWith parse d root scanned).2) : diagnostic.isWarning = true := by
  obtain ⟨final, done, hend, -, -, -, hdiagnostics⟩ :=
    exists_loaded parse d root.normalize scanned
  change diagnostic ∈
    (loadedWithin parse d root.normalize scanned (roundBound d)).diagnostics at h
  rw [hend _ (Nat.le_refl _), hdiagnostics] at h
  obtain ⟨path, -, hunread⟩ := List.mem_filterMap.mp h
  rw [unreadAt, readPending] at hunread
  split at hunread
  · cases hunread
  · rename_i hread
    cases hunread
    split at hread
    · cases hread
      rfl
    · split at hread
      · cases hread
        rfl
      · cases hread

/-- What was not scanned is reached exactly if the program imports it. -/
theorem reached_iff_imports (root : Path) (hp : p ∉ scanned.map Path.normalize) :
    Reached parse d (scanned.map Path.normalize) p ↔
      Imports d scanned (loadWith parse d root scanned).1 p := by
  have hclosure := isClosureOf_loadWith parse d root scanned
  constructor
  · intro h
    cases h with
    | scanned hmem => exact absurd hmem hp
    | followed hsource hfollows =>
        obtain ⟨m, hm, specifier, hspecifier, htarget⟩ := hfollows
        obtain ⟨file, hfile, rfl, rfl⟩ := (hclosure.files _ m).mpr ⟨hsource, hm⟩
        exact ⟨file, hfile, specifier, hspecifier, htarget⟩
  · rintro ⟨file, hfile, specifier, hspecifier, htarget⟩
    obtain ⟨hsource, hm⟩ := (hclosure.files _ _).mp ⟨file, hfile, rfl, rfl⟩
    exact .followed hsource ⟨file.module, hm, specifier, hspecifier, htarget⟩

/-! ## Assets -/

/-- What was scanned are sources. -/
def ScansSources (scanned : List Path) : Prop :=
  ∀ p ∈ scanned, p.isSource = true

/-- A file without the extension of a source was not scanned. -/
theorem ScansSources.notMem (h : ScansSources scanned) (hasset : p.isSource = false) :
    p ∉ scanned.map Path.normalize := by
  intro hmem
  obtain ⟨q, hq, rfl⟩ := List.mem_map.mp hmem
  rw [Path.isSource_normalize (h q hq)] at hasset
  cases hasset

/-- An asset is in the program exactly if it is imported and parses. -/
theorem ScansSources.exists_file_iff (h : ScansSources scanned) (hasset : p.isSource = false) :
    (∃ file ∈ (loadWith parse d root scanned).1.files, file.path = p) ↔
      Imports d scanned (loadWith parse d root scanned).1 p ∧ ∃ m, ReadsAs parse d p m := by
  have hclosure := isClosureOf_loadWith parse d root scanned
  rw [← reached_iff_imports root (h.notMem hasset)]
  constructor
  · rintro ⟨file, hfile, rfl⟩
    obtain ⟨hreached, hm⟩ := (hclosure.files _ _).mp ⟨file, hfile, rfl, rfl⟩
    exact ⟨hreached, file.module, hm⟩
  · rintro ⟨hreached, m, hm⟩
    obtain ⟨file, hfile, hpath, -⟩ := (hclosure.files p m).mpr ⟨hreached, hm⟩
    exact ⟨file, hfile, hpath⟩

/-- Files are reported, each once, and an asset is among them exactly if it is imported and does not
    parse.  So only sources are read exactly if nothing else is imported. -/
theorem ScansSources.exists_unread (h : ScansSources scanned) :
    ∃ unread : List Path, unread.Nodup ∧
      List.Forall₂ (ReportsUnread root.normalize) unread (loadWith parse d root scanned).2 ∧
      (∀ p, p.isSource = false → (p ∈ unread ↔
        Imports d scanned (loadWith parse d root scanned).1 p ∧ ¬∃ m, ReadsAs parse d p m)) ∧
      (((∀ file ∈ (loadWith parse d root scanned).1.files, file.path.isSource = true) ∧
          ∀ p ∈ unread, p.isSource = true) ↔
        ∀ p, Imports d scanned (loadWith parse d root scanned).1 p → p.isSource = true) := by
  have hclosure := isClosureOf_loadWith parse d root scanned
  obtain ⟨unread, hnodup, hmem, hreports⟩ := hclosure.reported
  have hasset : ∀ p, p.isSource = false → (p ∈ unread ↔
      Imports d scanned (loadWith parse d root scanned).1 p ∧ ¬∃ m, ReadsAs parse d p m) := by
    intro p hp
    rw [hmem p, reached_iff_imports root (h.notMem hp)]
  refine ⟨unread, hnodup, hreports, hasset, ?_⟩
  constructor
  · rintro ⟨hfiles, hunread⟩ p himports
    -- An imported asset would be in the program or reported.
    by_contra hnot
    have hp := eq_false_of_ne_true hnot
    by_cases hreads : ∃ m, ReadsAs parse d p m
    · obtain ⟨file, hfile, rfl⟩ := (h.exists_file_iff hp).mpr ⟨himports, hreads⟩
      exact hnot (hfiles file hfile)
    · exact hnot (hunread p ((hasset p hp).mpr ⟨himports, hreads⟩))
  · intro hsources
    constructor
    · intro file hfile
      by_contra hnot
      have hp := eq_false_of_ne_true hnot
      exact hnot (hsources _ ((h.exists_file_iff hp).mp ⟨file, hfile, rfl⟩).1)
    · intro p hp
      by_contra hnot
      exact hnot (hsources p ((hasset p (eq_false_of_ne_true hnot)).mp hp).1)

end Program

/-! ## Strict extractions -/

namespace CommandLine

/-- A strict extraction fails on a warning. -/
theorem exitCode_of_warning {d : Disk} {root : String} {config : Config} {options : ExtractOptions}
    {outcome : Outcome} {diagnostic : Diagnostic}
    (hmem : diagnostic ∈ (Analysis.ofRoot d root config).diagnostics)
    (hwarning : diagnostic.isWarning = true) (hstrict : options.strict = true)
    (hconfig : configFor d options = .ok config) (hroot : d.realPath? options.root = some root)
    (hrun : Command.run d (.extract options) = .ok outcome) : outcome.exitCode = 1 := by
  have hanalysis : (∃ fault, Analysis.run d options.root config = .error fault) ∨
      Analysis.run d options.root config = .ok (Analysis.ofRoot d root config) := by
    rw [Analysis.run, hroot]
    dsimp only
    split
    · exact Or.inl ⟨_, rfl⟩
    · split
      · exact Or.inl ⟨_, rfl⟩
      · exact Or.inr rfl
  have hcount : Diagnostic.warningCount (Analysis.ofRoot d root config).diagnostics ≠ 0 :=
    Nat.ne_of_gt (List.countP_pos_iff.mpr ⟨diagnostic, hmem, hwarning⟩)
  have hfailed : (options.strict &&
      Diagnostic.warningCount (Analysis.ofRoot d root config).diagnostics != 0) = true := by
    rw [hstrict, Bool.true_and, bne_iff_ne]
    exact hcount
  rw [run_extract, hconfig] at hrun
  dsimp only at hrun
  rcases hanalysis with ⟨fault, herror⟩ | hok
  · rw [herror] at hrun
    cases hrun
  · rw [hok] at hrun
    dsimp only at hrun
    rw [hfailed] at hrun
    split at hrun
    · cases hrun
      rfl
    · split at hrun
      · cases hrun
        rfl
      · cases hrun

end CommandLine

namespace Program

/-- The program that is loaded for a configuration, with what is reported about its files. -/
def loadedFor (d : Disk) (root : String) (config : Config) : Program × List Diagnostic :=
  load d (Path.ofText root) (Scan.listed d root config)

/-- A module of the program that is loaded for a configuration imports the file at a path. -/
def ImportedFor (d : Disk) (root : String) (config : Config) (p : Path) : Prop :=
  Imports d (Scan.listed d root config) (loadedFor d root config).1 p

/-- The file at a path is read and parsed to a module. -/
def IsModule (d : Disk) (p : Path) : Prop :=
  ∃ m, ReadsAs Source.Module.parse? d p m

/-- Imported assets are read like modules.  A specifier leads to the file that it names, and to
    an asset only by naming it, unless the asset is hidden.  An asset is in the program exactly if
    it is imported and parses; if it does not parse it is reported, once, and a strict extraction
    fails.  Only sources are read exactly if nothing else is imported. -/
structure ReadsAssets (d : Disk) (root : String) (config : Config) : Prop where
  named : ∀ source specifier base, Path.specifierBase? source specifier = some base →
    d.isFile base.text = true →
      target? d ((Scan.listed d root config).map Path.normalize) source specifier = some base
  naming : ∀ source specifier p,
    target? d ((Scan.listed d root config).map Path.normalize) source specifier = some p →
      p.isSource = false → Path.specifierBase? source specifier = some p ∨
        ∃ e ∈ Path.moduleExtensions, p.fileName? = some ("." ++ e)
  inProgram : ∀ p, p.isSource = false →
    ((∃ file ∈ (loadedFor d root config).1.files, file.path = p) ↔
      ImportedFor d root config p ∧ IsModule d p)
  reported : ∃ unread : List Path, unread.Nodup ∧
    List.Forall₂ (ReportsUnread (Path.ofText root).normalize) unread (loadedFor d root config).2 ∧
    (∀ p, p.isSource = false → (p ∈ unread ↔ ImportedFor d root config p ∧ ¬IsModule d p)) ∧
    (((∀ file ∈ (loadedFor d root config).1.files, file.path.isSource = true) ∧
        ∀ p ∈ unread, p.isSource = true) ↔
      ∀ p, ImportedFor d root config p → p.isSource = true)
  strict : ∀ p, p.isSource = false → ImportedFor d root config p → ¬IsModule d p →
    ∀ (options : CommandLine.ExtractOptions) (outcome : CommandLine.Outcome),
      options.strict = true → CommandLine.configFor d options = .ok config →
        d.realPath? options.root = some root →
          CommandLine.Command.run d (.extract options) = .ok outcome → outcome.exitCode = 1

/-- **Imported assets**: for every project, loading reads each imported file like a module, whatever
    its extension. -/
theorem imported_assets_read (d : Disk) (root : String) (config : Config) :
    ReadsAssets d root config := by
  have hscanned : ScansSources (Scan.listed d root config) := by
    intro p hp
    rw [Scan.listed, Scan.files_eq_filesWith] at hp
    exact (Scan.mem_filesWith.mp hp).1
  obtain ⟨unread, hnodup, hreports, hmem, hsources⟩ :=
    @ScansSources.exists_unread Source.Module.parse? d (Path.ofText root) _ hscanned
  constructor
  case named =>
    intro source specifier base hbase hfile
    exact target?_eq_some_of_isFile hbase hfile
  case naming =>
    intro source specifier p htarget hasset
    exact eq_base_of_target? htarget hasset
  case inProgram =>
    intro p hasset
    exact hscanned.exists_file_iff hasset
  case reported =>
    exact ⟨unread, hnodup, hreports, hmem, hsources⟩
  case strict =>
    intro p hasset himported hnot options outcome hstrict hconfig hroot hrun
    have hlength := List.length_pos_of_mem ((hmem p hasset).mpr ⟨himported, hnot⟩)
    rw [hreports.length_eq] at hlength
    obtain ⟨diagnostic, hdiagnostic⟩ := List.exists_mem_of_length_pos hlength
    have hwarning := isWarning_of_mem_loadWith hdiagnostic
    refine CommandLine.exitCode_of_warning ?_ hwarning hstrict hconfig hroot hrun
    exact List.mem_append_left _ (List.mem_append_left _ hdiagnostic)

/-- A project whose only module imports a stylesheet. -/
def styledDisk : Disk :=
  { root := .directory
      [ ("app.ts", .file (some "import \"./style.css\";")),
        ("style.css", .file (some ".a \x7b color: red \x7d")) ]
    workingDirectory := "/" }

/-- Everything is scanned, and nothing is ignored. -/
def scanAll : Config :=
  { ignores := [], ignoreTestFiles := false }

/-- The module is listed. -/
theorem mem_listed_styledDisk :
    (⟨[.root, .name "app.ts"]⟩ : Path) ∈ Scan.listed styledDisk "/" scanAll := by
  have hroot : Path.ofText "/" = ⟨[.root]⟩ := by
    rw [Path.ofText, Text.splitOn_slash]
    decide +kernel
  have hname : Path.IsName "app.ts" := by decide +kernel
  have htext := hname.ofText_joinText "/"
  rw [hroot] at htext
  refine Scan.mem_listed.mpr
    ⟨"/", List.mem_singleton_self _, Path.joinText "/" "app.ts", ⟨?_, ?_, ?_⟩, htext⟩
  · have hfound : Scan.filesAt styledDisk "/" = ["/app.ts", "/style.css"] := by
      rw [Scan.filesAt, hroot, Disk.find?, Disk.follow, Text.splitOn_slash]
      decide +kernel
    rw [hfound]
    decide +kernel
  · rw [htext]
    exact Path.isSource_of_fileName (e := "ts") (show "app" ≠ "" by decide)
      (Or.inl (by decide))
      (Path.fileName?_concat [.root] "app.ts")
  · exact List.forall_mem_nil _

/-- It imports the stylesheet. -/
theorem importedFor_styledDisk :
    ImportedFor styledDisk "/" scanAll ⟨[.root, .name "style.css"]⟩ := by
  have hread : styledDisk.read (Path.text ⟨[.root, .name "app.ts"]⟩) =
      .ok "import \"./style.css\";" := by
    simp only [Disk.read, Disk.follow, Text.splitOn_slash]
    decide +kernel
  have hparse : ∃ m, Source.Module.parse? "/app.ts" "import \"./style.css\";" = some m ∧
      "./style.css" ∈ specifiers m := ⟨_, rfl, by decide +kernel⟩
  obtain ⟨m, hm, hspecifier⟩ := hparse
  have hclosure := isClosureOf_loadWith Source.Module.parse? styledDisk (Path.ofText "/")
    (Scan.listed styledDisk "/" scanAll)
  have hscanned : (⟨[.root, .name "app.ts"]⟩ : Path) ∈
      (Scan.listed styledDisk "/" scanAll).map Path.normalize :=
    List.mem_map.mpr ⟨_, mem_listed_styledDisk, rfl⟩
  obtain ⟨file, hfile, hpath, rfl⟩ := (hclosure.files _ m).mpr ⟨.scanned hscanned, _, hread, hm⟩
  refine ⟨file, hfile, "./style.css", hspecifier, target?_eq_some_of_isFile ?_ ?_⟩
  · rw [hpath]
    simp only [Path.specifierBase?, Path.resolveFrom, Path.ofText, Text.splitOn_slash]
    decide +kernel
  · simp only [Disk.isFile, Disk.find?, Disk.follow, Text.splitOn_slash]
    decide +kernel

/-- So a strict extraction fails: the stylesheet is no module. -/
theorem stylesheet_fails_extraction :
    ImportedFor styledDisk "/" scanAll ⟨[.root, .name "style.css"]⟩ ∧
      ∀ (options : CommandLine.ExtractOptions) (outcome : CommandLine.Outcome),
        options.strict = true → CommandLine.configFor styledDisk options = .ok scanAll →
          styledDisk.realPath? options.root = some "/" →
            CommandLine.Command.run styledDisk (.extract options) = .ok outcome →
              outcome.exitCode = 1 := by
  have hasset : Path.isSource ⟨[.root, .name "style.css"]⟩ = false := by
    simp only [Path.isSource, Path.extension?, Path.splitName, Text.splitOn_dot]
    decide +kernel
  have hnot : ¬IsModule styledDisk ⟨[.root, .name "style.css"]⟩ := by
    have hread : styledDisk.read (Path.text ⟨[.root, .name "style.css"]⟩) =
        .ok ".a \x7b color: red \x7d" := by
      simp only [Disk.read, Disk.follow, Text.splitOn_slash]
      decide +kernel
    rintro ⟨m, text, htext, hparse⟩
    rw [hread] at htext
    cases htext
    cases hparse
  exact ⟨importedFor_styledDisk,
    (imported_assets_read styledDisk "/" scanAll).strict _ hasset importedFor_styledDisk hnot⟩

end Program

end ElementCatalog
