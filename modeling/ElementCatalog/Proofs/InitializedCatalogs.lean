import ElementCatalog.Proofs.ConfigTexts
import ElementCatalog.Proofs.ExtractionOutcomes
import ElementCatalog.Proofs.InitializedPrograms

/-!
# Initialized catalogs — default configuration files

Toward: a configuration is read back from its texts, and where no configuration file is found, making
one in the root of a project succeeds and leaves the configuration of an extraction and its catalog.
The route: where none is found, the root has none (`exists_isBare`), so it can be written there
(`run_init`); from then on it is found first and holds the defaults, which were the configuration
before (`load_initialized`), and relative paths mean the same (`configFor_initialized`); the catalog
depends on what is listed, what is loaded from it and how it is bundled (`ofRoot_initialized`).
-/

namespace ElementCatalog

open CommandLine
open ElementCatalog.Path (ofText joinText)
open ConfigFile (fileName isName_fileName)
open Disk (names plainPath)

/-- Where no configuration file is found from a directory, it has none. -/
theorem Disk.exists_isBare {d : Disk} (hproper : d.root.Proper) {root : String}
    (hdirectory : d.isDirectory root = true) (hnone : ConfigFile.find? d root = none) :
    ∃ trail entries, d.IsBare trail entries ∧ d.LeadsInto root trail entries ∧ root ≠ "" := by
  obtain ⟨trail, entries, hfollow, hhere⟩ : ∃ trail entries,
      d.follow root = .ok trail ∧ d.here trail = .directory entries := by
    rw [isDirectory, find?] at hdirectory
    cases hfollow : d.follow root with
    | error fault =>
        rw [hfollow] at hdirectory
        cases hdirectory
    | ok trail =>
        rw [hfollow] at hdirectory
        cases hhere : d.here trail with
        | file text =>
            dsimp only at hdirectory
            rw [hhere] at hdirectory
            cases hdirectory
        | directory entries => exact ⟨trail, entries, rfl, hhere⟩
  obtain ⟨hne, hsteps, -⟩ := follow_eq_ok_iff.mp hfollow
  have hinto : d.LeadsInto root trail entries := ⟨hsteps, hhere⟩
  refine ⟨trail, entries, ⟨hproper, hinto.isWay, hhere, ?_⟩, hinto, hne⟩
  rw [ConfigFile.find?, ConfigFile.findFrom?] at hnone
  have hexists := hinto.exists_joinText_name isName_fileName
  rw [hinto.has_eq] at hexists
  cases hfind : Dictionary.find? entries fileName with
  | none => rfl
  | some tree =>
      rw [hfind, Option.isSome_some] at hexists
      rw [if_pos hexists] at hnone
      cases hnone

/-- A configuration file that is found, read and valid is the configuration. -/
theorem ConfigFile.load_eq_ok {d : Disk} {directory path text : String} {config : Config}
    (hfound : find? d directory = some path) (hread : d.read path = .ok text)
    (hparse : Config.parse text = .ok config) (hvalid : config.fault? = none) :
    load d directory = .ok (config, true) := by
  rw [load, hfound]
  dsimp only
  rw [hread]
  dsimp only
  rw [hparse]
  dsimp only
  rw [hvalid]

namespace Disk.IsBare

variable {d : Disk} {trail : Disk.Trail} {entries : List (String × FileTree)}
  (h : d.IsBare trail entries)

include h

/-! ## Making the file -/

/-- **Making the file**: in a directory without a configuration file one is made that holds the
    defaults. -/
theorem run_init : ∃ report,
    Command.run (d.within (plainPath (names trail))) .init =
      .ok ⟨0, "", report, [(fileName, Config.defaultText)],
        (d.initialized trail).within (plainPath (names trail))⟩ := by
  have hslash : (plainPath (names trail)).startsWith "/" = true := by
    rw [plainPath, String.startsWith_string_iff, String.toList_append]
    exact List.prefix_append _ _
  have hinto := h.leadsInto.within hslash
  have hfree := hinto.exists_name isName_fileName
  rw [h.absent] at hfree
  have hwrite := hinto.write?_name isName_fileName h.absent Config.defaultText
  refine ⟨Report.initialization true, ?_⟩
  rw [Command.run, Command.steps, CommandLine.init, Steps.bind_eq]
  dsimp only [get, getThe, MonadStateOf.get, EStateM.get, Session.start]
  rw [hfree, if_neg (by decide), Steps.bind_eq, Steps.write_eq]
  dsimp only
  rw [hwrite]
  rfl

/-! ## Configurations -/

/-- **Configurations**: with the configuration file made, it is found first from its directory, and
    holds the defaults. -/
theorem load_initialized {root : String} (hroot : d.LeadsInto root trail entries) :
    ConfigFile.load (d.initialized trail) root = .ok ({}, true) := by
  obtain ⟨trail', hinto, -⟩ := h.leadsInto_initialized hroot
  have hentry : Dictionary.find? (entries ++ [(fileName, .file (some Config.defaultText))])
      fileName = some (.file (some Config.defaultText)) := by
    rw [Dictionary.find?_append, h.absent, Option.none_or, Dictionary.find?, if_pos rfl]
  have hfound : ConfigFile.find? (d.initialized trail) root = some (joinText root fileName) := by
    rw [ConfigFile.find?, ConfigFile.findFrom?, Disk.exists,
      hinto.find?_joinText_name isName_fileName, hentry]
    rfl
  have hread : (d.initialized trail).read (joinText root fileName) = .ok Config.defaultText := by
    have hfollow := (hinto.follow_joinText_name isName_fileName _).mpr ⟨_, hentry, rfl⟩
    exact Disk.read_of_follow hfollow rfl
  exact ConfigFile.load_eq_ok hfound hread Config.parse_defaultText Config.fault?_default

/-- The working directory has the same plain path. -/
theorem workingDirectory_initialized :
    CommandLine.workingDirectory (d.initialized trail) = CommandLine.workingDirectory d := by
  have hstays : Path.endsInStep "." = false := by
    rw [Path.endsInStep, Text.splitOn_slash]
    decide +kernel
  have hreal : (d.initialized trail).realPath? "." = d.realPath? "." :=
    Disk.realPath?_added h.vacant hstays
  rw [CommandLine.workingDirectory, CommandLine.workingDirectory, hreal]
  rfl

/-- With the configuration file made, an extraction has the same configuration. -/
theorem configFor_initialized {options : ExtractOptions}
    (hroot : d.LeadsInto options.root trail entries)
    (hnone : ConfigFile.find? d options.root = none) :
    configFor (d.initialized trail) options = configFor d options := by
  have hload : ConfigFile.load d options.root = .ok ({}, false) := by
    rw [ConfigFile.load, hnone]
  have habsolute (path : String) : absolute (d.initialized trail) path = absolute d path := by
    rw [absolute, h.workingDirectory_initialized]
    rfl
  rw [configFor, configFor, h.load_initialized hroot, hload]
  dsimp only
  cases options.buildConfig with
  | none => rfl
  | some path =>
      dsimp only
      rw [habsolute]

/-! ## Catalogs -/

/-- **Catalogs**: with the configuration file made, an analysis gives the same catalog, unless a
    source is shadowed by it that is named from above the root of the file system. -/
theorem ofRoot_initialized (hplain : ¬ShadowedFromAbove d (plainPath (names trail)))
    (buildConfig : Option String) :
    (Analysis.ofRoot (d.initialized trail) (plainPath (names trail)) { buildConfig }).catalog =
      (Analysis.ofRoot d (plainPath (names trail)) { buildConfig }).catalog := by
  have hlisted := h.listed_initialized buildConfig
  have hprogram := h.program_initialized hplain buildConfig
  have hruntime := h.runtime_initialized buildConfig
  have hcatalog (disk : Disk) :
      (Analysis.ofRoot disk (plainPath (names trail)) { buildConfig }).catalog =
        ((Workspace.ofProgram (Program.load disk (ofText (plainPath (names trail)))
            (Scan.listed disk (plainPath (names trail)) { buildConfig })).1
            (Config.conventions { buildConfig })).assemble
          (BuildConfig.runtime disk (plainPath (names trail)) buildConfig).1).1 :=
    rfl
  rw [hcatalog, hcatalog, hlisted, hprogram, hruntime]

/-- A path to the directory still leads to its plain path, where a directory is. -/
theorem realPath?_initialized {root : String} (hroot : d.LeadsInto root trail entries)
    (hne : root ≠ "") :
    (d.initialized trail).realPath? root = some (plainPath (names trail)) ∧
      (d.initialized trail).isDirectory (plainPath (names trail)) = true := by
  obtain ⟨trail', hinto, hparallel⟩ := h.leadsInto_initialized hroot
  obtain ⟨trail'', hplain, -⟩ := h.leadsInto_initialized h.leadsInto
  refine ⟨?_, hplain.isDirectory_eq (plainPath_ne_empty _)⟩
  rw [← hparallel.names_eq]
  exact Disk.realPath?_of_follow (hinto.follow_eq hne)

end Disk.IsBare

/-! ## Default configurations -/

/-- In a directory a configuration file is made that holds the defaults, and nothing else is
    written. -/
def CommandLine.Initializes (d : Disk) (directory : String) (d' : Disk) : Prop :=
  ∃ outcome, Command.run (d.within directory) .init = .ok outcome ∧ outcome.exitCode = 0 ∧
    outcome.written = [(fileName, Config.defaultText)] ∧
      d' = outcome.disk.within d.workingDirectory

/-- An analysis of a directory with a valid configuration succeeds. -/
theorem Analysis.run_eq_ok {d : Disk} {root real : String} {config : Config}
    (hreal : d.realPath? root = some real) (hdirectory : d.isDirectory real = true)
    (hvalid : config.fault? = none) : run d root config = .ok (ofRoot d real config) := by
  rw [run, hreal]
  dsimp only
  rw [hdirectory, hvalid]
  rfl

/-- Without a configuration file, an extraction is configured by the defaults. -/
theorem CommandLine.configFor_of_none {d : Disk} {options : ExtractOptions}
    (hnone : ConfigFile.find? d options.root = none) :
    ∃ buildConfig, configFor d options = .ok { buildConfig } := by
  rw [configFor, ConfigFile.load, hnone]
  dsimp only
  cases options.buildConfig with
  | none => exact ⟨none, rfl⟩
  | some path => exact ⟨some (absolute d path), rfl⟩

/-- The text of a module that imports the configuration file beside it. -/
def cardText : String :=
  "import \"./.wcscanrc.json\";\ncustomElements.define(\"x-card\", class \x7b\x7d);"

/-- A repository with one module and no configuration file. -/
def cardDisk : Disk :=
  { root := .directory
      [("app", .directory [(".git", .directory []), ("card.ts", .file (some cardText))])]
    workingDirectory := "/app" }

/-- The directories hold distinct names. -/
theorem proper_cardDisk : cardDisk.root.Proper := by
  refine .directory (by decide) (by decide +kernel) (List.forall_mem_singleton.mpr ?_)
  refine .directory (by decide) (by decide +kernel) (List.forall_mem_cons.mpr ⟨?_, ?_⟩)
  · exact .directory (by decide) (by decide +kernel) (List.forall_mem_nil _)
  · exact List.forall_mem_singleton.mpr (.file _)

/-- No name of a source goes on behind that of the configuration file. -/
theorem not_shadowedFromAbove_cardDisk : ¬ShadowedFromAbove cardDisk "/app" := by
  have hmissing : ∀ e ∈ Path.moduleExtensions,
      cardDisk.isFile (joinText "/app" (fileName ++ "." ++ e)) = false := by
    simp only [Disk.isFile, Disk.find?, Disk.follow, Text.splitOn_slash]
    decide +kernel
  rintro ⟨-, e, he, hfile⟩
  rw [hmissing e he] at hfile
  cases hfile

end ElementCatalog
