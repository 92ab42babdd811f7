import ElementCatalog.CommandLine.Run
import ElementCatalog.Proofs.DiskWrites

/-!
# Outcomes of extractions — what is delivered, reported and signalled

Toward: an extraction either fails, and then it has printed and written nothing; or it delivers the
whole catalog once, in one place, and its exit code and its report agree on the number of warnings.
The route:

* steps that only read the disk, and steps that cannot fail, keep a command from stopping half way
  (`AllOrNothing`);
* so a command that fails gives its fault and nothing else (`outcome_eq`), and an extraction is one
  equation on configuration, analysis and output (`run_extract`);
* it fails for the reasons that are listed in `Hindered`, and for no other;
* of the lines of a report, exactly the heads of warnings start like warnings (`extraction_eq`).
-/

namespace ElementCatalog.CommandLine

/-! ## Steps that stop -/

namespace Steps

variable {α β : Type}

/-- Steps that fail leave the session as it was. -/
def AllOrNothing (steps : Steps α) : Prop :=
  ∀ s fault s', steps s = .error fault s' → s' = s

/-- Steps that leave the session as it was in any case. -/
structure ReadsOnly (steps : Steps α) : Prop where
  allOrNothing : AllOrNothing steps
  unchanged : ∀ s a s', steps s = .ok a s' → s' = s

/-- Steps that cannot fail. -/
def NeverFails (steps : Steps α) : Prop :=
  ∀ s, ∃ a s', steps s = .ok a s'

/-- One sequence of steps after another. -/
theorem bind_eq (first : Steps α) (next : α → Steps β) (s : Session) :
    (first >>= next) s =
      match first s with
      | .ok a s' => next a s'
      | .error fault s' => .error fault s' := by
  show EStateM.bind first next s = _
  rw [EStateM.bind]
  cases first s <;> rfl

/-- Reading first keeps steps from stopping half way. -/
theorem ReadsOnly.bind {first : Steps α} {next : α → Steps β} (hfirst : ReadsOnly first)
    (hnext : ∀ a, AllOrNothing (next a)) : AllOrNothing (first >>= next) := by
  intro s fault s' h
  rw [bind_eq] at h
  cases hrun : first s with
  | error stopped middle =>
      rw [hrun] at h
      cases h
      exact hfirst.allOrNothing s _ _ hrun
  | ok a middle =>
      rw [hrun] at h
      rw [hfirst.unchanged s a middle hrun] at h
      exact hnext a s fault s' h

/-- Only the first steps can fail if the others cannot. -/
theorem AllOrNothing.bind {first : Steps α} {next : α → Steps β} (hfirst : AllOrNothing first)
    (hnext : ∀ a, NeverFails (next a)) : AllOrNothing (first >>= next) := by
  intro s fault s' h
  rw [bind_eq] at h
  cases hrun : first s with
  | error stopped middle =>
      rw [hrun] at h
      cases h
      exact hfirst s _ _ hrun
  | ok a middle =>
      rw [hrun] at h
      obtain ⟨b, last, hlast⟩ := hnext a middle
      cases hlast.symm.trans h

/-- Steps that cannot fail do not stop half way. -/
theorem NeverFails.allOrNothing {steps : Steps α} (h : NeverFails steps) :
    AllOrNothing steps := by
  intro s fault s' hrun
  obtain ⟨a, last, hlast⟩ := h s
  cases hlast.symm.trans hrun

/-- Working something out from the disk. -/
theorem reading_eq (f : Disk → Except RunFault α) (s : Session) :
    reading f s =
      match f s.disk with
      | .ok a => .ok a s
      | .error fault => .error fault s := by
  show (match f s.disk with
    | .ok a => (pure a : Steps α)
    | .error fault => throw fault) s = _
  cases f s.disk <;> rfl

/-- Working something out from the disk only reads. -/
theorem readsOnly_reading (f : Disk → Except RunFault α) : ReadsOnly (reading f) := by
  constructor
  · intro s fault s' h
    rw [reading_eq] at h
    cases hf : f s.disk <;> rw [hf] at h <;> cases h
    rfl
  · intro s a s' h
    rw [reading_eq] at h
    cases hf : f s.disk <;> rw [hf] at h <;> cases h
    rfl

/-- Looking at the session only reads. -/
theorem readsOnly_get : ReadsOnly (get : Steps Session) :=
  ⟨fun _ _ _ h => (nomatch h), fun _ _ _ h => by cases h; rfl⟩

/-- Writing a file. -/
theorem write_eq (path text : String) (fault : RunFault) (s : Session) :
    write path text fault s =
      match s.disk.write? path text with
      | some disk => .ok () { s with disk := disk, written := s.written ++ [(path, text)] }
      | none => .error fault s := by
  rw [write, bind_eq]
  show (match s.disk.write? path text with
    | some disk => modify fun s : Session =>
        { s with disk := disk, written := s.written ++ [(path, text)] }
    | none => (throw fault : Steps Unit)) s = _
  cases s.disk.write? path text <;> rfl

/-- A file is written or left alone. -/
theorem allOrNothing_write (path text : String) (fault : RunFault) :
    AllOrNothing (write path text fault) := by
  intro s stopped s' h
  rw [write_eq] at h
  cases hwrite : s.disk.write? path text <;> rw [hwrite] at h <;> cases h
  rfl

/-- A report that ends a command cannot fail. -/
theorem neverFails_tell (lines : List String) (a : α) :
    NeverFails (tell lines >>= fun _ => pure a) :=
  fun _ => ⟨_, _, rfl⟩

end Steps

open Steps

/-- A command that fails has done nothing. -/
theorem allOrNothing_steps (command : Command) : AllOrNothing command.steps := by
  cases command with
  | extract options =>
      refine (readsOnly_reading _).bind fun config => (readsOnly_reading _).bind fun analysis => ?_
      cases options.output with
      | none => exact (NeverFails.allOrNothing fun _ => ⟨_, _, rfl⟩)
      | some path => exact (allOrNothing_write _ _ _).bind fun _ => neverFails_tell _ _
  | init =>
      refine readsOnly_get.bind fun s => ?_
      split
      · exact (neverFails_tell _ _).allOrNothing
      · exact (allOrNothing_write _ _ _).bind fun _ => neverFails_tell _ _

/-- A command that fails gives its fault and nothing else. -/
theorem outcome_eq (d : Disk) (command : Command) :
    command.outcome d =
      match command.run d with
      | .ok outcome => outcome
      | .error fault => ⟨2, "", ["Error: " ++ fault.message], [], d⟩ := by
  rw [Command.outcome, Command.run]
  cases h : command.steps (.start d) with
  | ok exitCode s => rfl
  | error fault s =>
      rw [allOrNothing_steps command _ _ _ h]
      rfl

/-- An extraction, from the configuration and the analysis to the place of the catalog. -/
theorem run_extract (d : Disk) (options : ExtractOptions) :
    Command.run d (.extract options) =
      match configFor d options with
      | .error fault => .error fault
      | .ok config =>
        match Analysis.run d options.root config with
        | .error fault => .error (.analysis fault)
        | .ok analysis =>
          let text := catalogText analysis.catalog options.compact
          let report := Report.extraction analysis options.output options.verbose
          let failed := options.strict && Diagnostic.warningCount analysis.diagnostics != 0
          let exitCode := if failed then 1 else 0
          match options.output with
          | none => .ok ⟨exitCode, text ++ "\n", report, [], d⟩
          | some path =>
            match d.write? path text with
            | some disk => .ok ⟨exitCode, "", report, [(path, text)], disk⟩
            | none => .error (.unwritableOutput path) := by
  rw [Command.run, Command.steps, CommandLine.extract, bind_eq, reading_eq]
  dsimp only [Session.start]
  cases configFor d options with
  | error fault => rfl
  | ok config =>
      dsimp only
      rw [bind_eq, reading_eq]
      dsimp only
      cases Analysis.run d options.root config with
      | error fault => rfl
      | ok analysis =>
          dsimp only [Except.mapError]
          cases options.output with
          | none =>
              show Except.ok (Outcome.mk _ ("" ++ _) ([] ++ _) [] d) = _
              rw [String.empty_append, List.nil_append]
          | some path =>
              dsimp only
              rw [bind_eq, write_eq]
              dsimp only
              cases d.write? path (catalogText analysis.catalog options.compact) <;> rfl

/-! ## Why extractions fail -/

/-- A directory has a configuration file that cannot be used. -/
inductive BrokenConfig (d : Disk) (directory : String) : Prop where
  | unreadable {path : String} {fault : ReadFault}
    (hfind : ConfigFile.find? d directory = some path) (h : d.read path = .error fault)
  | unparsable {path text : String} {fault : Json.Fault}
    (hfind : ConfigFile.find? d directory = some path) (hread : d.read path = .ok text)
    (h : Config.parse text = .error fault)
  | invalid {path text : String} {config : Config} {fault : ConfigFault}
    (hfind : ConfigFile.find? d directory = some path) (hread : d.read path = .ok text)
    (hparse : Config.parse text = .ok config) (h : config.fault? = some fault)

/-- What keeps an extraction from delivering its catalog. -/
inductive Hindered (d : Disk) (options : ExtractOptions) : Prop where
  | config (h : BrokenConfig d options.root)
  | missingRoot (h : d.realPath? options.root = none)
  | rootNoDirectory {real : String} (hreal : d.realPath? options.root = some real)
    (h : d.isDirectory real = false)
  | unwritable {path : String} (houtput : options.output = some path)
    (h : ∀ text, d.write? path text = none)

/-- Loading a configuration fails exactly on files that cannot be used. -/
theorem load_fails_iff (d : Disk) (directory : String) :
    (∃ fault, ConfigFile.load d directory = .error fault) ↔ BrokenConfig d directory := by
  constructor
  · rintro ⟨fault, h⟩
    rw [ConfigFile.load] at h
    cases hfind : ConfigFile.find? d directory with
    | none => rw [hfind] at h; cases h
    | some path =>
        rw [hfind] at h
        dsimp only at h
        cases hread : d.read path with
        | error unread => exact .unreadable hfind hread
        | ok text =>
            rw [hread] at h
            dsimp only at h
            cases hparse : Config.parse text with
            | error unparsed => exact .unparsable hfind hread hparse
            | ok config =>
                rw [hparse] at h
                dsimp only at h
                cases hfault : config.fault? with
                | some found => exact .invalid hfind hread hparse hfault
                | none => rw [hfault] at h; cases h
  · rintro (⟨hfind, h⟩ | ⟨hfind, hread, h⟩ | ⟨hfind, hread, hparse, h⟩)
    · simp [ConfigFile.load, hfind, h]
    · simp [ConfigFile.load, hfind, hread, h]
    · simp [ConfigFile.load, hfind, hread, hparse, h]

/-- A configuration that is loaded is without faults. -/
theorem fault?_of_load {d : Disk} {directory : String} {config : Config} {fromFile : Bool}
    (h : ConfigFile.load d directory = .ok (config, fromFile)) : config.fault? = none := by
  rw [ConfigFile.load] at h
  cases hfind : ConfigFile.find? d directory with
  | none =>
      rw [hfind] at h
      cases h
      decide +kernel
  | some path =>
      rw [hfind] at h
      dsimp only at h
      cases hread : d.read path with
      | error unread => rw [hread] at h; cases h
      | ok text =>
          rw [hread] at h
          dsimp only at h
          cases hparse : Config.parse text with
          | error unparsed => rw [hparse] at h; cases h
          | ok parsed =>
              rw [hparse] at h
              dsimp only at h
              cases hfault : parsed.fault? with
              | some found => rw [hfault] at h; cases h
              | none =>
                  rw [hfault] at h
                  cases h
                  exact hfault

/-- The configuration of an extraction is without faults, and there is one unless its file cannot be
    used. -/
theorem configFor_cases (d : Disk) (options : ExtractOptions) :
    (BrokenConfig d options.root ∧ ∃ fault, configFor d options = .error fault) ∨
      (¬BrokenConfig d options.root ∧
        ∃ config, configFor d options = .ok config ∧ config.fault? = none) := by
  rw [← load_fails_iff]
  cases hload : ConfigFile.load d options.root with
  | error fault =>
      refine Or.inl ⟨⟨fault, rfl⟩, .config fault, ?_⟩
      rw [configFor, hload]
  | ok loaded =>
      obtain ⟨config, fromFile⟩ := loaded
      have hfault := fault?_of_load hload
      refine Or.inr ⟨nofun, ?_⟩
      rw [configFor, hload]
      dsimp only
      cases options.buildConfig with
      | none => exact ⟨config, rfl, hfault⟩
      | some path => exact ⟨_, rfl, hfault⟩

/-- An analysis fails exactly if its root is no directory, unless its configuration has a fault. -/
theorem run_cases (d : Disk) (root : String) {config : Config} (h : config.fault? = none) :
    (d.realPath? root = none ∧ ∃ fault, Analysis.run d root config = .error fault) ∨
      ∃ real, d.realPath? root = some real ∧
        ((d.isDirectory real = false ∧ ∃ fault, Analysis.run d root config = .error fault) ∨
          (d.isDirectory real = true ∧
            Analysis.run d root config = .ok (Analysis.ofRoot d real config))) := by
  rw [Analysis.run]
  cases hreal : d.realPath? root with
  | none => exact Or.inl ⟨rfl, _, rfl⟩
  | some real =>
      refine Or.inr ⟨real, rfl, ?_⟩
      dsimp only
      cases hdirectory : d.isDirectory real with
      | false => exact Or.inl ⟨rfl, _, rfl⟩
      | true =>
          refine Or.inr ⟨rfl, ?_⟩
          rw [h]
          rfl

/-! ## Warnings in reports -/

namespace Report

/-- A line of a report starts like a warning. -/
def isWarningLine (line : String) : Bool :=
  "warning: ".toList.isPrefixOf line.toList

/-- The first line about a diagnostic. -/
def headline (d : Diagnostic) : String :=
  d.severity.name ++ ": " ++ d.message ++ "  " ++ d.kind.name

/-- What follows other letters does not start like a warning. -/
theorem isWarningLine_append {start : String} (rest : String)
    (h : ∃ c cs, start.toList = c :: cs ∧ c ≠ 'w') : isWarningLine (start ++ rest) = false := by
  obtain ⟨c, cs, hstart, hc⟩ := h
  have hwarning : "warning: ".toList = 'w' :: "arning: ".toList := by decide +kernel
  have hne : ('w' == c) = false := beq_eq_false_iff_ne.mpr hc.symm
  rw [isWarningLine, hwarning, String.toList_append, hstart, List.cons_append, List.isPrefixOf_cons_cons,
    hne, Bool.false_and]

/-- A line that starts with the word is one. -/
theorem isWarningLine_warning (rest : String) : isWarningLine ("warning: " ++ rest) = true := by
  rw [isWarningLine, String.toList_append, List.isPrefixOf_iff_prefix]
  exact List.prefix_append _ _

/-- Of the lines about a diagnostic, the first one starts like a warning if it is one, and no other
    does. -/
theorem filter_diagnosticLines (d : Diagnostic) :
    (diagnosticLines d).filter isWarningLine = if d.isWarning then [headline d] else [] := by
  have hplace (rest : String) : isWarningLine ("  --> " ++ rest) = false :=
    isWarningLine_append rest ⟨' ', _, rfl, by decide⟩
  have hhead : isWarningLine (headline d) = d.isWarning := by
    rw [headline, Diagnostic.isWarning]
    cases d.severity with
    | warning =>
        have hwarning : Severity.warning.name ++ ": " = "warning: " := rfl
        rw [hwarning, String.append_assoc, String.append_assoc]
        exact isWarningLine_warning _
    | info =>
        rw [String.append_assoc, String.append_assoc, String.append_assoc]
        exact isWarningLine_append _ ⟨'i', _, rfl, by decide⟩
  have hlines : (diagnosticLines d).filter isWarningLine = [headline d].filter isWarningLine := by
    rw [diagnosticLines, headline]
    split <;> simp only [List.filter_cons, List.filter_nil, String.append_assoc, hplace,
      Bool.false_eq_true, if_false]
  rw [hlines, List.filter_cons, hhead, List.filter_nil]

/-- Rows of components do not start like warnings. -/
theorem filter_componentLines (components : List Component) :
    (componentLines components).filter isWarningLine = [] := by
  rw [List.filter_eq_nil_iff]
  intro line hline
  obtain ⟨c, -, rfl⟩ := List.mem_map.mp hline
  simp only [String.append_assoc]
  rw [isWarningLine_append _ ⟨' ', _, rfl, by decide⟩]
  exact Bool.false_ne_true

/-- Of the report on an extraction but its last line, exactly the heads of the warnings start like
    warnings, whatever else is told. -/
theorem extraction_eq (a : Analysis) (output : Option String) (verbose : Bool) :
    ∃ lines, extraction a output verbose =
        lines ++ warningLines (Diagnostic.warningCount a.diagnostics) ∧
      lines.filter isWarningLine = (a.diagnostics.filter Diagnostic.isWarning).map headline := by
  have hdiagnostics (ds : List Diagnostic) :
      ((ds.filter fun d => d.isWarning || verbose).flatMap diagnosticLines).filter isWarningLine =
        (ds.filter Diagnostic.isWarning).map headline := by
    rw [List.filter_flatMap]
    simp only [filter_diagnosticLines]
    induction ds with
    | nil => rfl
    | cons d rest ih =>
        cases hwarning : d.isWarning <;> cases verbose <;> simp_all
  have hsummary : isWarningLine (summaryLine a output) = false := by
    unfold summaryLine
    simp only [String.append_assoc]
    exact isWarningLine_append _ ⟨'✓', " Extracted ".toList, by decide +kernel, by decide⟩
  have hbundler : isWarningLine (bundlerLine a.catalog.runtime) = false := by
    rw [bundlerLine, String.append_assoc]
    exact isWarningLine_append _ ⟨' ', _, rfl, by decide⟩
  have hrows : (if verbose = true then componentLines a.catalog.components else []).filter
      isWarningLine = [] := by
    cases verbose
    · rfl
    · exact filter_componentLines _
  refine ⟨_, rfl, ?_⟩
  rw [List.filter_append, List.filter_append, hdiagnostics, hrows, List.filter_cons, hsummary,
    List.filter_cons, hbundler]
  simp

end Report

/-! ## Outcomes -/

/-- A text is delivered whole and once: printed by itself, or written to a file that holds it
    then. -/
inductive Delivered (d : Disk) (text : String) : (output : Option String) → Outcome → Prop where
  | printed {outcome : Outcome} (hprinted : outcome.printed = text ++ "\n")
    (hwritten : outcome.written = []) (hdisk : outcome.disk = d) : Delivered d text none outcome
  | written {outcome : Outcome} {path : String} (hprinted : outcome.printed = "")
    (hwritten : outcome.written = [(path, text)]) (hdisk : d.write? path text = some outcome.disk)
    (hread : outcome.disk.read path = .ok text) : Delivered d text (some path) outcome

/-- Nothing was printed, written or changed. -/
structure Untouched (d : Disk) (outcome : Outcome) : Prop where
  printed : outcome.printed = ""
  written : outcome.written = []
  disk : outcome.disk = d

/-- An extraction delivered the catalog of its analysis, and told of every warning. -/
structure Completed (d : Disk) (options : ExtractOptions) (config : Config) (analysis : Analysis)
    (outcome : Outcome) : Prop where
  config_eq : configFor d options = .ok config
  analysis_eq : Analysis.run d options.root config = .ok analysis
  delivered : Delivered d (catalogText analysis.catalog options.compact) options.output outcome
  exitCode_eq : outcome.exitCode =
    if options.strict = true ∧ Diagnostic.warningCount analysis.diagnostics ≠ 0 then 1 else 0
  report_eq : ∃ lines, outcome.report =
      lines ++ Report.warningLines (Diagnostic.warningCount analysis.diagnostics) ∧
    lines.filter Report.isWarningLine =
      (analysis.diagnostics.filter Diagnostic.isWarning).map Report.headline ∧
    (lines.filter Report.isWarningLine).length = Diagnostic.warningCount analysis.diagnostics

/-- A text is delivered in one way only. -/
theorem Delivered.unique {d : Disk} {text : String} {output : Option String}
    {outcome other : Outcome} (h : Delivered d text output outcome)
    (hother : Delivered d text output other) :
    other.printed = outcome.printed ∧ other.written = outcome.written ∧
      other.disk = outcome.disk := by
  cases h with
  | printed hprinted hwritten hdisk =>
      cases hother with
      | printed hprinted' hwritten' hdisk' =>
          exact ⟨hprinted'.trans hprinted.symm, hwritten'.trans hwritten.symm,
            hdisk'.trans hdisk.symm⟩
  | written hprinted hwritten hdisk =>
      cases hother with
      | written hprinted' hwritten' hdisk' =>
          exact ⟨hprinted'.trans hprinted.symm, hwritten'.trans hwritten.symm,
            Option.some.inj (hdisk'.symm.trans hdisk)⟩

/-- An extraction is not hindered if its configuration, its root and its output can be used. -/
theorem not_hindered {d : Disk} {options : ExtractOptions} {real : String}
    (hconfig : ¬BrokenConfig d options.root) (hreal : d.realPath? options.root = some real)
    (hdirectory : d.isDirectory real = true)
    (houtput : ∀ path, options.output = some path →
      ∃ text, (d.write? path text).isSome = true) : ¬Hindered d options := by
  rintro (hbroken | hmissing | ⟨hother, hno⟩ | ⟨hpath, hnone⟩)
  · exact hconfig hbroken
  · cases hmissing.symm.trans hreal
  · cases hother.symm.trans hreal
    cases hno.symm.trans hdirectory
  · obtain ⟨text, htext⟩ := houtput _ hpath
    rw [hnone text] at htext
    cases htext

/-- An extraction that delivers its catalog, signals and reports is completed. -/
theorem completed {d : Disk} {options : ExtractOptions} {config : Config} {analysis : Analysis}
    {outcome : Outcome} (hconfig : configFor d options = .ok config)
    (hanalysis : Analysis.run d options.root config = .ok analysis)
    (hdelivered : Delivered d (catalogText analysis.catalog options.compact) options.output outcome)
    (hreport : outcome.report = Report.extraction analysis options.output options.verbose)
    (hexitCode : outcome.exitCode =
      if (options.strict && Diagnostic.warningCount analysis.diagnostics != 0) = true then 1
      else 0) : Completed d options config analysis outcome := by
  obtain ⟨lines, hlines, hfilter⟩ :=
    Report.extraction_eq analysis options.output options.verbose
  refine ⟨hconfig, hanalysis, hdelivered, ?_, lines, hreport.trans hlines, hfilter, ?_⟩
  · rw [hexitCode]
    simp only [Bool.and_eq_true, bne_iff_ne]
  · rw [hfilter, List.length_map, Diagnostic.warningCount, List.countP_eq_length_filter]

/-- An extraction is hindered and does nothing, or is completed. -/
theorem extraction_cases (d : Disk) (options : ExtractOptions) :
    let outcome := Command.outcome d (.extract options)
    (Hindered d options ∧ outcome.exitCode = 2 ∧ Untouched d outcome) ∨
      (¬Hindered d options ∧
        ∃ config analysis, Completed d options config analysis outcome) := by
  intro outcome
  have houtcome : outcome = _ := outcome_eq d (.extract options)
  have hfails {fault : RunFault} (h : Command.run d (.extract options) = .error fault) :
      outcome.exitCode = 2 ∧ Untouched d outcome := by
    rw [houtcome, h]
    exact ⟨rfl, rfl, rfl, rfl⟩
  -- The configuration is loaded first, then the root is looked at, and the output is written last.
  have hrun := run_extract d options
  rcases configFor_cases d options with
    ⟨hbroken, fault, hconfig⟩ | ⟨hbroken, config, hconfig, hfault⟩
  · rw [hconfig] at hrun
    exact Or.inl ⟨.config hbroken, hfails hrun⟩
  rw [hconfig] at hrun
  dsimp only at hrun
  rcases run_cases d options.root hfault with
    ⟨hmissing, fault, hanalysis⟩ |
      ⟨real, hreal, ⟨hdirectory, fault, hanalysis⟩ | ⟨hdirectory, hanalysis⟩⟩
  · rw [hanalysis] at hrun
    exact Or.inl ⟨.missingRoot hmissing, hfails hrun⟩
  · rw [hanalysis] at hrun
    exact Or.inl ⟨.rootNoDirectory hreal hdirectory, hfails hrun⟩
  · rw [hanalysis] at hrun
    dsimp only at hrun
    cases houtput : options.output with
    | none =>
        rw [houtput] at hrun
        rw [hrun] at houtcome
        refine Or.inr ⟨not_hindered hbroken hreal hdirectory (by rw [houtput]; nofun),
          config, Analysis.ofRoot d real config, ?_⟩
        rw [houtcome]
        refine completed hconfig hanalysis ?_ (by rw [houtput]) rfl
        rw [houtput]
        exact .printed rfl rfl rfl
    | some path =>
        rw [houtput] at hrun
        dsimp only at hrun
        cases hwrite : d.write? path
            (catalogText (Analysis.ofRoot d real config).catalog options.compact) with
        | none =>
            rw [hwrite] at hrun
            refine Or.inl ⟨.unwritable houtput fun text => ?_, hfails hrun⟩
            have hsome := Disk.isSome_write? d path text
              (catalogText (Analysis.ofRoot d real config).catalog options.compact)
            rw [hwrite] at hsome
            exact Option.isNone_iff_eq_none.mp (Option.isSome_eq_false_iff.mp hsome)
        | some disk =>
            rw [hwrite] at hrun
            rw [hrun] at houtcome
            have hwritable : ∀ other, options.output = some other →
                ∃ text, (d.write? other text).isSome = true := by
              intro other hother
              cases houtput.symm.trans hother
              exact ⟨_, by rw [hwrite]; rfl⟩
            refine Or.inr ⟨not_hindered hbroken hreal hdirectory hwritable, config,
              Analysis.ofRoot d real config, ?_⟩
            rw [houtcome]
            refine completed hconfig hanalysis ?_ (by rw [houtput]) rfl
            rw [houtput]
            exact .written rfl rfl hwrite (Disk.read_of_write? hwrite)

/-- What hinders an extraction does not depend on what it tells of warnings. -/
theorem hindered_congr (d : Disk) (options : ExtractOptions) (strict verbose : Bool) :
    Hindered d { options with strict := strict, verbose := verbose } ↔ Hindered d options := by
  constructor
  · rintro (h | h | ⟨hreal, h⟩ | ⟨houtput, h⟩)
    exacts [.config h, .missingRoot h, .rootNoDirectory hreal h, .unwritable houtput h]
  · rintro (h | h | ⟨hreal, h⟩ | ⟨houtput, h⟩)
    exacts [.config h, .missingRoot h, .rootNoDirectory hreal h, .unwritable houtput h]

/-- A completed extraction is not signalled as a failed one. -/
theorem Completed.exitCode_ne_two {d : Disk} {options : ExtractOptions} {config : Config}
    {analysis : Analysis} {outcome : Outcome} (h : Completed d options config analysis outcome) :
    outcome.exitCode ≠ 2 := by
  rw [h.exitCode_eq]
  split <;> decide

end ElementCatalog.CommandLine
