import ElementCatalog.Component.Assembly
import ElementCatalog.Project.BuildConfig
import ElementCatalog.Project.ConfigFile
import ElementCatalog.Project.Loading
import ElementCatalog.Project.Scan

/-!
# Analysis — from a project to its catalog

A project is scanned, its files are loaded with the modules that they reach, its build configuration
is read, and its registrations are assembled. Only a root that is no directory and an invalid
configuration stop an analysis.
-/

namespace ElementCatalog

/-- What an analysis gives. -/
structure Analysis where
  catalog : Catalog
  diagnostics : List Diagnostic
  /-- The number of scanned files; the modules that they reach do not count. -/
  filesScanned : Nat
  filesSkipped : Nat

/-- Why a project cannot be analyzed. -/
inductive AnalysisFault where
  | missingRoot (path : String)
  | rootNoDirectory (path : String)
  | invalidConfig (fault : ConfigFault)
deriving DecidableEq, Repr

/-- The text of a fault. -/
def AnalysisFault.message : AnalysisFault → String
  | .missingRoot path => "Project root " ++ path ++ " does not exist"
  | .rootNoDirectory path => "Project root " ++ path ++ " is not a directory"
  | .invalidConfig fault => fault.message

namespace Analysis

/-- Analyze the project below a root that is there. -/
def ofRoot (d : Disk) (root : String) (config : Config) : Analysis :=
  let scanned := Scan.files d root config.includes config.ignores config.ignoreTestFiles
  let (program, unread) := Program.load d (Path.ofText root) scanned
  let (runtime, unbuilt) := BuildConfig.runtime d root config.buildConfig
  let (catalog, problems) := (Workspace.ofProgram program config.conventions).assemble runtime
  { catalog := catalog
    diagnostics := unread ++ unbuilt ++ problems
    filesScanned := scanned.length
    filesSkipped := 0 }

/-- Analyze a project. -/
def run (d : Disk) (root : String) (config : Config) : Except AnalysisFault Analysis :=
  match d.realPath? root with
  | none => .error (.missingRoot root)
  | some real =>
    if !d.isDirectory real then .error (.rootNoDirectory real)
    else
      match config.fault? with
      | some fault => .error (.invalidConfig fault)
      | none => .ok (ofRoot d real config)

end Analysis

end ElementCatalog
