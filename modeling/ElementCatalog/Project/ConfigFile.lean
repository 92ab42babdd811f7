import ElementCatalog.Config.Json
import ElementCatalog.Project.Disk
import ElementCatalog.Text.Quoted

/-!
# Configuration files — where a project keeps its configuration

The configuration file of a directory lies in it or in a directory above it, up to the first one
that is a repository. Directories above are found by taking names off the path.
-/

namespace ElementCatalog.ConfigFile

/-- The name of configuration files. -/
def fileName : String := ".wcscanrc.json"

/-- Why no configuration could be loaded. -/
inductive LoadFault where
  | unreadable (path : String)
  | unparsable (path : String)
  | invalid (fault : ConfigFault)
deriving DecidableEq, Repr

/-- The text of a fault. -/
def LoadFault.message : LoadFault → String
  | .unreadable path => "Failed to read config file: " ++ Text.quoted path
  | .unparsable path => "Failed to parse config file: " ++ Text.quoted path
  | .invalid fault => fault.message

/-- Look in a directory and then in those above it, at most `fuel` of them. -/
def findFrom? (d : Disk) : (fuel : Nat) → (directory : String) → Option String
  | 0, _ => none
  | fuel + 1, directory =>
    let path := Path.joinText directory fileName
    if d.exists path then some path
    else if d.exists (Path.joinText directory ".git") then none
    else
      match (Path.ofText directory).parent? with
      | some parent => findFrom? d fuel parent.text
      | none => none

/-- The configuration file of a directory. -/
def find? (d : Disk) (directory : String) : Option String :=
  findFrom? d ((Path.ofText directory).components.length + 1) directory

/-- The configuration of a directory, and whether it comes from a file. -/
def load (d : Disk) (directory : String) : Except LoadFault (Config × Bool) :=
  match find? d directory with
  | none => .ok ({}, false)
  | some path =>
    match d.read path with
    | .error _ => .error (.unreadable path)
    | .ok text =>
      match Config.parse text with
      | .error _ => .error (.unparsable path)
      | .ok config =>
        match config.fault? with
        | some fault => .error (.invalid fault)
        | none => .ok (config, true)

end ElementCatalog.ConfigFile
