import ElementCatalog.CommandLine.Arguments
import ElementCatalog.CommandLine.Report
import ElementCatalog.Json.Printer

/-!
# Running a command

A command is carried out step by step in a session: it reads the disk, may write a file, prints, and
reports. A step that fails ends the command, and what was done before stays done. What a command
gives is the printed text, the report, the exit code, and the disk as it is then.
-/

namespace ElementCatalog.CommandLine

/-- Why a command could not be carried out. -/
inductive RunFault where
  | config (fault : ConfigFile.LoadFault)
  | analysis (fault : AnalysisFault)
  | unwritableOutput (path : String)
  | unwritableConfig
deriving DecidableEq, Repr

/-- The text of a fault. -/
def RunFault.message : RunFault → String
  | .config fault => fault.message
  | .analysis fault => fault.message
  | .unwritableOutput path => "Failed to write output file: " ++ path
  | .unwritableConfig => "Failed to write " ++ ConfigFile.fileName

/-! ## Sessions -/

/-- What a command has done so far. -/
structure Session where
  disk : Disk
  printed : String
  report : List String
  /-- The files that were written, with their texts. -/
  written : List (String × String)

/-- The session of a command that has done nothing yet. -/
def Session.start (d : Disk) : Session :=
  ⟨d, "", [], []⟩

/-- Steps of a command in its session. -/
abbrev Steps := EStateM RunFault Session

namespace Steps

/-- Work something out from the disk. -/
def reading {α : Type} (f : Disk → Except RunFault α) : Steps α := do
  match f (← get).disk with
  | .ok a => return a
  | .error fault => throw fault

/-- Print a text. -/
def print (text : String) : Steps Unit :=
  modify fun s => { s with printed := s.printed ++ text }

/-- Report some lines. -/
def tell (lines : List String) : Steps Unit :=
  modify fun s => { s with report := s.report ++ lines }

/-- Write a file, or fail. -/
def write (path text : String) (fault : RunFault) : Steps Unit := do
  match (← get).disk.write? path text with
  | some disk => modify fun s => { s with disk := disk, written := s.written ++ [(path, text)] }
  | none => throw fault

end Steps

/-! ## Extracting -/

/-- The plain absolute path of the working directory. -/
def workingDirectory (d : Disk) : String :=
  (d.realPath? ".").getD d.workingDirectory

/-- Make a path absolute without looking at the disk. Single dots and repeated slashes are dropped,
    double dots and a slash at the end are kept; two slashes in front stay two. -/
def absolute (d : Disk) (path : String) : String :=
  let plain := Path.render ((Path.ofText path).components.filter (· != .here))
  let whole :=
    if plain = "" then workingDirectory d
    else if path.startsWith "//" && !path.startsWith "///" then "/" ++ plain
    else Path.joinText (workingDirectory d) plain
  if path.endsWith "/" && !whole.endsWith "/" then whole ++ "/" else whole

/-- The configuration of an extraction: that of the project, with the build configuration that was
    named on the command line, seen from the working directory. -/
def configFor (d : Disk) (options : ExtractOptions) : Except RunFault Config :=
  match ConfigFile.load d options.root with
  | .error fault => .error (.config fault)
  | .ok (config, _) =>
    match options.buildConfig with
    | some path => .ok { config with buildConfig := some (absolute d path) }
    | none => .ok config

/-- The text of a catalog. -/
def catalogText (catalog : Catalog) (compact : Bool) : String :=
  if compact then Json.compact catalog.toJson else Json.pretty catalog.toJson

/-- Extract a catalog. The exit code tells of warnings if they are not allowed. -/
def extract (options : ExtractOptions) : Steps Nat := do
  let config ← Steps.reading fun d => configFor d options
  let analysis ← Steps.reading fun d => (Analysis.run d options.root config).mapError .analysis
  let text := catalogText analysis.catalog options.compact
  match options.output with
  | none => Steps.print (text ++ "\n")
  | some path => Steps.write path text (.unwritableOutput path)
  Steps.tell (Report.extraction analysis options.output options.verbose)
  let failed := options.strict && Diagnostic.warningCount analysis.diagnostics != 0
  return if failed then 1 else 0

/-- Make a configuration file in the working directory, unless there is one. -/
def init : Steps Nat := do
  if (← get).disk.exists ConfigFile.fileName then
    Steps.tell (Report.initialization false)
    return 1
  else
    Steps.write ConfigFile.fileName Config.defaultText .unwritableConfig
    Steps.tell (Report.initialization true)
    return 0

/-! ## Outcomes -/

/-- What a command gives. -/
structure Outcome where
  exitCode : Nat
  printed : String
  report : List String
  written : List (String × String)
  disk : Disk

/-- What a session gives that ends with an exit code. -/
def Session.outcome (s : Session) (exitCode : Nat) : Outcome :=
  ⟨exitCode, s.printed, s.report, s.written, s.disk⟩

/-- The steps of a command, up to its exit code. -/
def Command.steps : Command → Steps Nat
  | .extract options => CommandLine.extract options
  | .init => CommandLine.init

/-- Carry out a command. -/
def Command.run (d : Disk) (command : Command) : Except RunFault Outcome :=
  match command.steps (.start d) with
  | .ok exitCode s => .ok (s.outcome exitCode)
  | .error fault _ => .error fault

/-- What a command gives, also if it cannot be carried out: its fault is reported then. -/
def Command.outcome (d : Disk) (command : Command) : Outcome :=
  match command.steps (.start d) with
  | .ok exitCode s => s.outcome exitCode
  | .error fault s =>
    { s with report := s.report ++ ["Error: " ++ fault.message] }.outcome 2

end ElementCatalog.CommandLine
