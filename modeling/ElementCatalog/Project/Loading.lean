import ElementCatalog.Diagnostic
import ElementCatalog.Path.Module
import ElementCatalog.Program.Basic
import ElementCatalog.Project.Disk

/-!
# Loading — from scanned files to a program

The scanned files are read together with every local module that they reach through imports and
exports, round by round. A file that cannot be read or parsed leaves a diagnostic and is not
followed.
-/

namespace ElementCatalog

open Source (Stmt StringLiteral)

namespace Program

/-- A file that is to be read. -/
structure PendingFile where
  path : Path
  discoverable : Bool
deriving DecidableEq, Repr

/-- What has been loaded so far. -/
structure Loading where
  /-- Every path that has been asked for. -/
  seen : List Path := []
  parsed : List ParsedFile := []
  diagnostics : List Diagnostic := []

/-- The module that an item imports from or exports from. -/
def itemSource? : Stmt → Option StringLiteral
  | .importFrom _ source _ => some source
  | .exportAll source _ => some source
  | .exportNames _ source _ => source
  | _ => none

/-- The relative specifiers of a module. -/
def specifiers (m : Source.Module) : List String :=
  (m.items.filterMap fun item => (itemSource? item).bind (·.value?)).filter
    Path.isRelativeSpecifier

/-- What tells from the path and the text of a file which module it is, if it is one. -/
abbrev ModuleParser := (path text : String) → Option Source.Module

/-- Read and parse a file. -/
def readPending (parse : ModuleParser) (d : Disk) (root : Path) (file : PendingFile) :
    Except Diagnostic ParsedFile :=
  let refuse (message : String) : Except Diagnostic ParsedFile :=
    .error (.warningIn .parseError message (Path.shownUnder root file.path.text))
  match d.read file.path.text with
  | .error fault => refuse ("Failed to read file: " ++ fault.message)
  | .ok text =>
    match parse file.path.text text with
    | none => refuse ("Failed to parse " ++ file.path.text)
    | some m => .ok ⟨file.path, m, file.discoverable⟩

/-- The file that a specifier leads to: the first candidate that was asked for or is there. -/
def target? (d : Disk) (seen : List Path) (source : Path) (specifier : String) : Option Path :=
  (Path.fallbackCandidates source specifier).find? fun candidate =>
    seen.contains candidate || d.isFile candidate.text

/-- Ask for the files that specifiers lead to, unless they have been asked for: everything asked
    for, and what is new. -/
def reach (d : Disk) (source : Path) : (specifiers : List String) → (seen new : List Path) →
    List Path × List Path
  | [], seen, new => (seen, new)
  | specifier :: rest, seen, new =>
    match target? d seen source specifier with
    | some path =>
      if seen.contains path then reach d source rest seen new
      else reach d source rest (seen ++ [path]) (new ++ [path])
    | none => reach d source rest seen new

/-- Load one file: the state after it, and the files that are new. -/
def loadFile (parse : ModuleParser) (d : Disk) (root : Path) (state : Loading)
    (file : PendingFile) : Loading × List Path :=
  match readPending parse d root file with
  | .error diagnostic => ({ state with diagnostics := state.diagnostics ++ [diagnostic] }, [])
  | .ok parsed =>
    let (seen, new) := reach d file.path (specifiers parsed.module) state.seen []
    ({ state with seen := seen, parsed := state.parsed ++ [parsed] }, new)

/-- Load the files of one round: the state after it, and the files of the next round. -/
def loadRound (parse : ModuleParser) (d : Disk) (root : Path) (state : Loading)
    (round : List PendingFile) : Loading × List PendingFile :=
  round.foldl
    (fun (state, next) file =>
      let (state, new) := loadFile parse d root state file
      (state, next ++ new.map fun path => ⟨path, false⟩))
    (state, [])

/-- Load round after round until nothing is new, at most `fuel` rounds. -/
def loadRounds (parse : ModuleParser) (d : Disk) (root : Path) :
    (fuel : Nat) → Loading → List PendingFile → Loading
  | 0, state, _ => state
  | _ + 1, state, [] => state
  | fuel + 1, state, round =>
    let (state, next) := loadRound parse d root state round
    loadRounds parse d root fuel state next

/-- The distinct paths of a list, in order of first occurrence. -/
def distinct (paths : List Path) : List Path :=
  paths.foldl Path.addNew []

/-- A number of rounds that no loading exceeds. Each round after the first one asks for a file that
    is there by a normal path that has not been asked for, and a file has at most four of these:
    absolute or not, and with or without a double dot at the start. -/
def roundBound (d : Disk) : Nat :=
  4 * d.root.fileCount + 1

/-- The program of the scanned files and of everything that they reach, with a given parser. -/
def loadWith (parse : ModuleParser) (d : Disk) (root : Path) (scanned : List Path) :
    Program × List Diagnostic :=
  let root := root.normalize
  let first := distinct (scanned.map Path.normalize)
  let round := first.map fun path => ⟨path, !path.isGenerated⟩
  let state := loadRounds parse d root (roundBound d) { seen := first } round
  (ofParsed root state.parsed, state.diagnostics)

/-- The program of the scanned files and of everything that they reach. -/
def load (d : Disk) (root : Path) (scanned : List Path) : Program × List Diagnostic :=
  loadWith Source.Module.parse? d root scanned

end Program

end ElementCatalog
