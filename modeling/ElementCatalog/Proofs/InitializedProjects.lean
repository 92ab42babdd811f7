import ElementCatalog.Proofs.DefaultIgnores
import ElementCatalog.Proofs.LoadedAssets
import ElementCatalog.Proofs.RealPaths
import ElementCatalog.Proofs.RuntimeOutcomes
import ElementCatalog.Proofs.WrittenJson
import Mathlib.Data.List.Find

/-!
# Initialized projects — what is found beside a new configuration file

Toward: where a configuration file with the defaults is made in the root of a project that has none,
the same modules are read, the same build configuration is found and the same files are scanned.  The
route: the text of the defaults is no module (`parse?_defaultText`), so a module is read where one was
read before (`holds_initialized`), and the project is bundled as before (`runtime_initialized`); the
new file is no source, so the same files are listed (`listed_initialized`).  A source whose name goes
on behind that of the configuration file is listed wherever anything is, because nothing keeps it from
being scanned that does not keep everything (`listed_of_longer`).
-/

namespace ElementCatalog

open ElementCatalog.Path (IsName ofText joinText)
open ConfigFile (fileName isName_fileName)

/-! ## Directories without a configuration file -/

/-- A way to a directory that has no configuration file. -/
structure Disk.IsBare (d : Disk) (trail : Disk.Trail) (entries : List (String × FileTree)) :
    Prop where
  proper : d.root.Proper
  way : d.IsWay trail
  here : d.here trail = .directory entries
  absent : Dictionary.find? entries fileName = none

/-- The disk with a configuration file made in a directory. -/
def Disk.initialized (d : Disk) (trail : Disk.Trail) : Disk :=
  d.adding (Disk.names trail) fileName Config.defaultText

/-- The configuration file of a directory has its name. -/
theorem ConfigFile.fileName?_joinText (path : String) :
    (ofText (joinText path fileName)).fileName? = some fileName := by
  rw [isName_fileName.ofText_joinText, Path.fileName?_concat]

/-- The extension of a configuration file. -/
theorem ConfigFile.extension?_eq {p : Path} (h : p.fileName? = some fileName) :
    p.extension? = some "json" := by
  have hshape : fileName = ".wcscanrc" ++ "." ++ "json" := by decide +kernel
  have hplain : "json".splitOn "." = ["json"] := by
    simp only [Text.splitOn_dot]
    decide +kernel
  have hsplit := Path.splitName_append (show ".wcscanrc" ≠ "" by decide) hplain
  rw [Path.extension?, h, Option.bind_some, hshape, hsplit]

/-- A configuration file is no source. -/
theorem ConfigFile.isSource_eq {p : Path} (h : p.fileName? = some fileName) :
    p.isSource = false := by
  rw [Path.isSource, extension?_eq h]
  decide

/-- A name that goes on behind that of the configuration file with the ending of a module is entered,
    and is none of a test. -/
theorem ConfigFile.longer_name {e : String} (he : e ∈ Path.moduleExtensions) :
    IsName (fileName ++ "." ++ e) ∧ Scan.isEntered (fileName ++ "." ++ e) = true ∧
      ∀ ending ∈ Scan.testEndings, ending.toList.length ≤ (fileName ++ "." ++ e).toList.length ∧
        ¬ending.toList <:+ (fileName ++ "." ++ e).toList := by
  revert e
  decide +kernel

/-- The characters of the default configuration file. -/
def Config.defaultChars : List Char :=
  Json.Layout.wide.write 0 (Config.toJson {})

/-- A reading that gives no value fails. -/
theorem Source.Parser.error_of_isNone {α : Type} {p : Parser α} {c : Cursor}
    (h : (EStateM.run' p c).isNone = true) : ∃ fault c', p c = .error fault c' := by
  cases hread : p c with
  | ok a c' =>
      have hsome : EStateM.run' p c = some a := by
        show EStateM.run' (fun _ => p c) c = some a
        rw [hread]
        rfl
      rw [hsome] at h
      cases h
  | error fault c' => exact ⟨fault, c', rfl⟩

/-- Where a statement would have to end, a colon stands. -/
theorem Source.moduleItems_defaultChars (markup ambient : Bool) : ∃ fault c,
    moduleItems (.ofDepth (grammarDepth Config.defaultChars.length))
      (.first { markup, ambient } Config.defaultChars) = .error fault c := by
  have hnone : ∀ markup ambient : Bool,
      (EStateM.run' (moduleItems (.ofDepth (grammarDepth Config.defaultChars.length)))
        (.first { markup, ambient } Config.defaultChars)).isNone = true := by
    decide +kernel
  exact Parser.error_of_isNone (hnone markup ambient)

/-- A text whose items cannot be read is no module. -/
theorem Source.Module.parse?_eq_none {path text : String} {chars : List Char}
    (hchars : text.toList = chars) {fault : Unit} {c : Source.Cursor}
    (hfails : Source.moduleItems (.ofDepth (Source.grammarDepth chars.length))
      (.first (.ofPath path) chars) = .error fault c) : Source.Module.parse? path text = none := by
  subst hchars
  rw [parse?, hfails]

/-- The text of the default configuration file is no module, whatever its path says. -/
theorem Source.Module.parse?_defaultText (path : String) :
    Source.Module.parse? path Config.defaultText = none := by
  have hchars : Config.defaultText.toList = Config.defaultChars := (Json.write_wide 0 _).symm
  obtain ⟨fault, c, hfails⟩ :=
    moduleItems_defaultChars (!isPlainSource path) (path.endsWith ".d.ts")
  exact parse?_eq_none hchars hfails

namespace Disk.IsBare

variable {d : Disk} {trail : Disk.Trail} {entries : List (String × FileTree)}
  (h : d.IsBare trail entries)

include h

/-- The names on the way are proper. -/
theorem isName : ∀ n ∈ names trail, IsName n :=
  h.way.isName h.proper

/-- The name of the configuration file is free. -/
theorem vacant : d.root.Vacant (names trail) fileName entries := by
  have hat := h.way.at?_names
  rw [h.here] at hat
  exact ⟨hat, h.absent⟩

/-- The plain path of the directory leads into it. -/
theorem leadsInto : d.LeadsInto (plainPath (names trail)) trail entries :=
  h.way.leadsInto_plainPath h.isName h.here

/-- A path to the directory leads into it with the configuration file made. -/
theorem leadsInto_initialized {path : String} (hpath : d.LeadsInto path trail entries) :
    ∃ trail', (d.initialized trail).LeadsInto path trail'
        (entries ++ [(fileName, .file (some Config.defaultText))]) ∧
      Disk.Parallel d (d.initialized trail) trail trail' :=
  hpath.added h.absent

/-- **Modules**: with the configuration file made, the same modules are read at every path. -/
theorem holds_initialized (path : String) (m : Source.Module) :
    BuildConfig.Holds (d.initialized trail) path m ↔ BuildConfig.Holds d path m := by
  constructor
  · rintro ⟨text, hread, hparse⟩
    rcases (Disk.isFile_added_iff h.vacant).mp (Disk.isFile_of_read hread) with hfile | hadded
    · have hsame : (d.initialized trail).read path = d.read path :=
        (Disk.read_added h.vacant hfile).2
      exact ⟨text, hsame.symm.trans hread, hparse⟩
    · cases hread.symm.trans hadded.read_eq.2
      rw [Source.Module.parse?_defaultText] at hparse
      cases hparse
  · rintro ⟨text, hread, hparse⟩
    have hsame : (d.initialized trail).read path = d.read path :=
      (Disk.read_added h.vacant (Disk.isFile_of_read hread)).2
    exact ⟨text, hsame.trans hread, hparse⟩

/-- Under any other name in the directory is what was there. -/
theorem find?_initialized {n : String} (hn : IsName n) (hne : n ≠ fileName) :
    (d.initialized trail).find? (joinText (plainPath (names trail)) n) =
      d.find? (joinText (plainPath (names trail)) n) := by
  obtain ⟨trail', hinto, -⟩ := h.leadsInto_initialized h.leadsInto
  have hother :
      Dictionary.find? [(fileName, FileTree.file (some Config.defaultText))] n = none := by
    rw [Dictionary.find?, if_neg (Ne.symm hne)]
    rfl
  rw [hinto.find?_joinText_name hn, h.leadsInto.find?_joinText_name hn, Dictionary.find?_append,
    hother, Option.or_none]

/-! ## Build configurations -/

/-- The same build configuration is found. -/
theorem findBuildConfig_initialized :
    BuildConfig.find? (d.initialized trail) (plainPath (names trail)) =
      BuildConfig.find? d (plainPath (names trail)) := by
  have hnames : ∀ n ∈ BuildConfig.candidateNames, IsName n ∧ n ≠ fileName := by decide +kernel
  have hfile : ∀ path ∈ BuildConfig.candidateNames.map (joinText (plainPath (names trail))),
      (d.initialized trail).isFile path = d.isFile path := by
    intro path hpath
    obtain ⟨n, hn, rfl⟩ := List.mem_map.mp hpath
    rw [Disk.isFile, Disk.isFile, h.find?_initialized (hnames n hn).1 (hnames n hn).2]
  have hcontents :
      (d.initialized trail).contents (joinText (plainPath (names trail)) "src") =
        d.contents (joinText (plainPath (names trail)) "src") := by
    rw [Disk.contents, Disk.contents, h.find?_initialized (by decide +kernel) (by decide)]
  rw [BuildConfig.find?, BuildConfig.find?, List.find?_congr hfile]
  dsimp only
  rw [hcontents]

/-- The same build configurations are located that hold a module. -/
theorem located_initialized (explicit : Option String) (path : String) (m : Source.Module) :
    BuildConfig.Located (d.initialized trail) (plainPath (names trail)) explicit path ∧
        BuildConfig.Holds (d.initialized trail) path m ↔
      BuildConfig.Located d (plainPath (names trail)) explicit path ∧
        BuildConfig.Holds d path m := by
  rw [h.holds_initialized]
  refine and_congr_left fun hm => ?_
  obtain ⟨text, hread, -⟩ := hm
  have hfile := Disk.isFile_of_read hread
  cases explicit with
  | none =>
      rw [← BuildConfig.find?_eq_some_iff, ← BuildConfig.find?_eq_some_iff,
        h.findBuildConfig_initialized]
  | some relative =>
      constructor
      · intro hlocated
        cases hlocated
        exact .named hfile
      · intro hlocated
        cases hlocated
        exact .named (Disk.read_added h.vacant hfile).1

/-- **Bundling**: with the configuration file made, a project is bundled as before. -/
theorem runtime_initialized (explicit : Option String) :
    (BuildConfig.runtime (d.initialized trail) (plainPath (names trail)) explicit).1 =
      (BuildConfig.runtime d (plainPath (names trail)) explicit).1 := by
  by_cases hknown : ∃ path m,
      BuildConfig.Located d (plainPath (names trail)) explicit path ∧
        BuildConfig.Holds d path m
  · obtain ⟨path, m, hboth⟩ := hknown
    have hboth' := (h.located_initialized explicit path m).mpr hboth
    rw [BuildConfig.runtime_of_holds hboth.1 hboth.2,
      BuildConfig.runtime_of_holds hboth'.1 hboth'.2]
  · rw [BuildConfig.runtime_of_not_holds hknown, BuildConfig.runtime_of_not_holds]
    rintro ⟨path, m, hboth'⟩
    exact hknown ⟨path, m, (h.located_initialized explicit path m).mp hboth'⟩

/-! ## Scanning -/

/-- With the configuration file made, the scan finds this file more. -/
theorem mem_filesAt_initialized (text : String) :
    text ∈ Scan.filesAt (d.initialized trail) (plainPath (names trail)) ↔
      text ∈ Scan.filesAt d (plainPath (names trail)) ∨
        (ofText (plainPath (names trail))).fileName?.all Scan.isEntered = true ∧
          text = joinText (plainPath (names trail)) fileName := by
  obtain ⟨trail', hinto, -⟩ := h.leadsInto_initialized h.leadsInto
  have hne := plainPath_ne_empty (names trail)
  have hentered : Scan.isEntered fileName = true := by decide
  rw [Scan.filesAt, Scan.filesAt]
  cases (ofText (plainPath (names trail))).fileName?.all Scan.isEntered with
  | false => simp
  | true =>
      rw [if_pos rfl, if_pos rfl, Disk.find?, Disk.find?, hinto.follow_eq hne,
        h.leadsInto.follow_eq hne]
      dsimp only
      rw [hinto.2, h.leadsInto.2]
      dsimp only
      rw [FileTree.entriesBelow, FileTree.entriesBelow, FileTree.entriesAmong_append,
        List.filterMap_append, List.mem_append]
      refine or_congr_right ?_
      rw [FileTree.entriesAmong, if_pos hentered]
      simp [FileTree.entriesBelow, FileTree.entriesAmong, FileTree.isFile]

/-- A file of the scan is found with the configuration file made exactly if it was found before. -/
theorem foundAt_initialized (text : String) (patterns : List String) :
    Scan.FoundAt (d.initialized trail) (plainPath (names trail)) patterns
        (plainPath (names trail)) text ↔
      Scan.FoundAt d (plainPath (names trail)) patterns
        (plainPath (names trail)) text := by
  constructor
  · rintro ⟨hfound, hsource, hkept⟩
    rcases (h.mem_filesAt_initialized text).mp hfound with hfound | ⟨-, rfl⟩
    · exact ⟨hfound, hsource, hkept⟩
    · rw [ConfigFile.isSource_eq (ConfigFile.fileName?_joinText _)] at hsource
      cases hsource
  · rintro ⟨hfound, hsource, hkept⟩
    exact ⟨(h.mem_filesAt_initialized text).mpr (Or.inl hfound), hsource, hkept⟩

/-- **Scanning**: with the configuration file made, the same files are listed. -/
theorem listed_initialized (buildConfig : Option String) :
    Scan.listed (d.initialized trail) (plainPath (names trail)) { buildConfig } =
      Scan.listed d (plainPath (names trail)) { buildConfig } := by
  have horder (disk : Disk) : Scan.InOrder
      (Scan.listed disk (plainPath (names trail)) { buildConfig }) := by
    rw [Scan.listed, Scan.files_eq_filesWith]
    exact Scan.inOrder_filesWith _ _ _ _ _ _
  refine (horder _).eq_of_mem_iff (horder _) fun p => ?_
  rw [Scan.mem_listed, Scan.mem_listed]
  refine exists_congr fun place => and_congr_right fun hplace => exists_congr fun text => ?_
  rw [List.mem_singleton.mp hplace, h.foundAt_initialized]

/-- A file in the directory is found in it, if the names of both are entered. -/
theorem mem_filesAt_of_isFile {n : String} (hn : IsName n) (henter : Scan.isEntered n = true)
    (hentered : (ofText (plainPath (names trail))).fileName?.all Scan.isEntered = true)
    (hfile : d.isFile (joinText (plainPath (names trail)) n) = true) :
    joinText (plainPath (names trail)) n ∈ Scan.filesAt d (plainPath (names trail)) := by
  rw [Disk.isFile, h.leadsInto.find?_joinText_name hn] at hfile
  cases hentry : Dictionary.find? entries n with
  | none =>
      rw [hentry] at hfile
      cases hfile
  | some tree =>
      rw [hentry] at hfile
      rw [Scan.filesAt, if_pos hentered, Disk.find?, h.leadsInto.follow_eq (plainPath_ne_empty _)]
      dsimp only
      rw [h.here]
      refine List.mem_filterMap.mpr ⟨_, FileTree.mem_entriesAmong_of_mem
        (Dictionary.mem_of_find? hentry) henter, ?_⟩
      cases tree with
      | file found => rfl
      | directory inside => cases hfile

/-- Whatever is found in the directory lies behind its path. -/
theorem exists_behind {text : String}
    (hfound : text ∈ Scan.filesAt d (plainPath (names trail))) :
    ∃ other, text = joinText (plainPath (names trail)) "" ++ other := by
  obtain ⟨hfile, -, others, hothers, rfl⟩ := Scan.isFile_of_mem_filesAt h.proper hfound
  cases others with
  | nil =>
      rw [List.foldl_nil, Disk.isFile, Disk.find?,
        h.leadsInto.follow_eq (plainPath_ne_empty _)] at hfile
      dsimp only at hfile
      rw [h.here] at hfile
      cases hfile
  | cons first rest =>
      obtain ⟨hfirst, hrest⟩ := List.forall_mem_cons.mp hothers
      obtain ⟨more, hmore⟩ := Path.exists_foldl_joinText_eq (fun n hn => (hrest n hn).1)
        (joinText (plainPath (names trail)) first)
      refine ⟨first ++ more, ?_⟩
      rw [List.foldl_cons, hmore, Path.joinText_eq_append _ hfirst.1.startsWith_eq_false,
        String.append_assoc]

/-- Where anything is listed, so is a source in the directory whose name goes on behind that of the
    configuration file. -/
theorem listed_of_longer {buildConfig : Option String} {p : Path}
    (hlisted : p ∈ Scan.listed d (plainPath (names trail)) { buildConfig }) {e : String}
    (he : e ∈ Path.moduleExtensions)
    (hfile : d.isFile (joinText (plainPath (names trail)) (fileName ++ "." ++ e)) = true) :
    ofText (joinText (plainPath (names trail)) (fileName ++ "." ++ e)) ∈
      Scan.listed d (plainPath (names trail)) { buildConfig } := by
  obtain ⟨hn, henter, hending⟩ := ConfigFile.longer_name he
  obtain ⟨place, hplace, text, ⟨hfound, -, hkept⟩, rfl⟩ := Scan.mem_listed.mp hlisted
  cases List.mem_singleton.mp hplace
  obtain ⟨-, hentered, -⟩ := Scan.isFile_of_mem_filesAt h.proper hfound
  obtain ⟨other, rfl⟩ := h.exists_behind hfound
  refine Scan.mem_listed.mpr
    ⟨_, hplace, _, ⟨h.mem_filesAt_of_isFile hn henter hentered hfile, ?_, ?_⟩, rfl⟩
  · refine Path.isSource_of_fileName (show fileName ≠ "" by decide)
      ((Path.isTried_extensions none).1 e he) ?_
    rw [hn.ofText_joinText, Path.fileName?_concat]
  · -- What lies behind one path, the default ignores tell apart by the endings of tests only.
    rw [Path.joinText_eq_append _ hn.startsWith_eq_false]
    exact Scan.kept_beside hn.noSlash hending hkept

end Disk.IsBare

end ElementCatalog
