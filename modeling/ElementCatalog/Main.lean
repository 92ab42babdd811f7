import ElementCatalog.CommandLine.Run

/-!
# The program

The outer layer: the part of the disk that a command may read is taken in as a tree, the command is
carried out on it, and what it gives is printed and written.
-/

namespace ElementCatalog.Terminal

/-- How the program is used. -/
def usage : String :=
  String.intercalate "\n"
    [ "Extract the properties and events of web components as JSON.",
      "",
      "Commands:",
      "  extract  Extract the catalog of a project",
      "  init     Make a configuration file in the working directory",
      "  help     Print this text",
      "",
      "Arguments of extract:",
      "  --root PATH          The directory of the project",
      "  --build-config PATH  The build configuration to read",
      "  -o, --output PATH    The file to write the catalog to",
      "  --compact            Write the catalog without blanks",
      "  --strict             Fail if there are warnings",
      "  -v, --verbose        Report every component" ]

/-- The words for a fault of a command line. -/
def faultText : CommandLine.UsageFault → String
  | .unknownArgument => "unknown argument"
  | .unknownCommand => "unknown command"
  | .invalidValue => "missing or empty value"
  | .repeatedArgument => "argument given twice"
  | .surplusValue => "this argument takes no value"
  | .helpAsked | .versionAsked => ""

/-- The tree at a directory entry. What a repository keeps for itself and links to directories are
    left out. -/
partial def treeAt (entry : IO.FS.DirEntry) : IO (Option FileTree) := do
  match (← entry.path.symlinkMetadata).type with
  | .dir =>
    if entry.fileName == ".git" then return some (.directory [])
    let entries ← (← entry.path.readDir).toList.filterMapM fun inner => do
      return (← treeAt inner).map fun tree => (inner.fileName, tree)
    return some (.directory entries)
  | _ =>
    if ← entry.path.isDir then return none
    else return some (.file (String.fromUTF8? (← IO.FS.readBinFile entry.path)))

/-- The names on the way to a plain absolute path. -/
def names (path : String) : List String :=
  (path.splitOn "/").filter (· != "")

/-- The entry for a plain absolute path. -/
def entryOf (path : String) : IO.FS.DirEntry :=
  ⟨"/", String.intercalate "/" (names path)⟩

/-- Take in what is at a plain absolute path, if it is there. -/
def takeIn (tree : FileTree) (path : String) : IO FileTree := do
  if ← (entryOf path).path.pathExists then
    match ← treeAt (entryOf path) with
    | some found => return tree.put (names path) found
    | none => return tree
  else return tree

/-- Take in the directory of a file that may be written, without what is in it. -/
def makeRoom (disk : Disk) (path : String) : IO Disk := do
  match (Path.ofText path).parent? with
  | none => return disk
  | some directory =>
    if disk.exists directory.text || !(← (entryOf directory.text).path.isDir) then return disk
    else return { disk with root := disk.root.put (names directory.text) (.directory []) }

/-- The directories at and above a plain absolute path, innermost first, up to the first one that is
    a repository. -/
def directoriesAbove : (reversedNames : List String) → IO (List String)
  | [] => return ["/"]
  | name :: rest => do
    let path := "/" ++ String.intercalate "/" (name :: rest).reverse
    if ← ((entryOf path).path / ".git").pathExists then return [path]
    else return path :: (← directoriesAbove rest)

/-- The disk as far as a command may read it: the repository around the project or else the project
    itself, the configuration files above it, and the paths that the command names. -/
def diskFor (root : String) (named : List String) : IO Disk := do
  let working := (← IO.currentDir).toString
  let tree := (FileTree.directory []).put (names working) (.directory [])
  let top := Path.joinText working root
  if !(← (entryOf top).path.pathExists) then return ⟨tree, working⟩
  let top := (← IO.FS.realPath top).toString
  let above ← directoriesAbove (names top).reverse
  let outermost := above.getLast?.getD top
  let settings := (working :: above).map fun path => Path.joinText path ConfigFile.fileName
  let others := named.map fun path => (Path.ofText (Path.joinText working path)).normalize.text
  let whole := if outermost == "/" then top else outermost
  let tree ← (whole :: settings ++ others).foldlM takeIn tree
  others.foldlM makeRoom ⟨tree, working⟩

/-- Carry out a command on the real disk. -/
def carryOut (command : CommandLine.Command) : IO UInt32 := do
  let disk ←
    match command with
    | .extract options => diskFor options.root (options.buildConfig.toList ++ options.output.toList)
    | .init => diskFor "." []
  let outcome := command.outcome disk
  outcome.written.forM fun (path, text) => IO.FS.writeFile path text
  IO.print outcome.printed
  outcome.report.forM IO.eprintln
  return outcome.exitCode.toUInt32

end ElementCatalog.Terminal

open ElementCatalog in
/-- Read the command line and carry it out. -/
def main (words : List String) : IO UInt32 := do
  match CommandLine.Command.ofWords words with
  | .ok (some command) =>
    try Terminal.carryOut command
    catch fault =>
      IO.eprintln ("Error: " ++ toString fault)
      return 2
  | .ok none | .error .helpAsked =>
    IO.println Terminal.usage
    return 0
  | .error .versionAsked =>
    IO.println "1.0"
    return 0
  | .error fault =>
    IO.eprintln ("error: " ++ Terminal.faultText fault)
    IO.eprintln Terminal.usage
    return 2
