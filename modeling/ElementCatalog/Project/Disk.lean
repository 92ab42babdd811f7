import ElementCatalog.Dictionary
import ElementCatalog.Path.Basic

/-!
# Disks — directories and files as they are found

A disk is a finite tree of directories with a working directory. A path is followed step by step, so
every directory on its way has to be there, also one that a double dot leaves again. Files whose
bytes are no text have no text to read.
-/

namespace ElementCatalog

/-- A file, with its text if it is one, or a directory with what it holds. -/
inductive FileTree where
  | file (text : Option String)
  | directory (entries : List (String × FileTree))

instance : Inhabited FileTree := ⟨.directory []⟩

/-- Why a file cannot be read. -/
inductive ReadFault where
  | missing
  | insideFile
  | isDirectory
  | notText
deriving DecidableEq, Repr

/-- The text of a fault. -/
def ReadFault.message : ReadFault → String
  | .missing => "No such file or directory (os error 2)"
  | .insideFile => "Not a directory (os error 20)"
  | .isDirectory => "Is a directory (os error 21)"
  | .notText => "stream did not contain valid UTF-8"

/-- Something below a directory. -/
structure Entry where
  path : String
  name : String
  isFile : Bool
deriving DecidableEq, Repr

namespace FileTree

/-- It is a file. -/
def isFile : FileTree → Bool
  | .file _ => true
  | .directory _ => false

mutual

/-- Everything below a directory whose path is given, of which only what may be entered counts. -/
def entriesBelow (enter : String → Bool) (path : String) : FileTree → List Entry
  | .file _ => []
  | .directory entries => entriesAmong enter path entries

/-- Everything at or below the given contents of a directory. -/
def entriesAmong (enter : String → Bool) (path : String) : List (String × FileTree) → List Entry
  | [] => []
  | (name, tree) :: rest =>
    (if enter name then
      ⟨Path.joinText path name, name, tree.isFile⟩ ::
        tree.entriesBelow enter (Path.joinText path name)
      else []) ++ entriesAmong enter path rest

end

mutual

/-- The number of files at or below a place. -/
def fileCount : FileTree → Nat
  | .file _ => 1
  | .directory entries => fileCountAmong entries

/-- The number of files among the contents of a directory. -/
def fileCountAmong : List (String × FileTree) → Nat
  | [] => 0
  | (_, tree) :: rest => tree.fileCount + fileCountAmong rest

end

/-- Put a tree at a place, given by the names on the way to it. Directories on the way that are not
    there are made. -/
def put (tree : FileTree) : (names : List String) → FileTree → FileTree
  | [], content => content
  | name :: names, content =>
    let entries :=
      match tree with
      | .directory entries => entries
      | .file _ => []
    let inner := (Dictionary.find? entries name).getD (.directory [])
    .directory (Dictionary.set entries name (put inner names content))

end FileTree

/-- A tree of directories with the directory that relative paths start from. -/
structure Disk where
  root : FileTree
  workingDirectory : String

namespace Disk

/-- Where a path has led: the names from here up to the root, each with what is there. -/
abbrev Trail := List (String × FileTree)

/-- What is at the end of a trail. -/
def here (d : Disk) (trail : Trail) : FileTree :=
  (trail.head?.map Prod.snd).getD d.root

/-- Take one step. -/
def step (d : Disk) (trail : Trail) (piece : String) : Except ReadFault Trail :=
  match d.here trail with
  | .file _ => .error .insideFile
  | .directory entries =>
    if piece = "" ∨ piece = "." then .ok trail
    else if piece = ".." then .ok trail.tail
    else
      match Dictionary.find? entries piece with
      | some tree => .ok ((piece, tree) :: trail)
      | none => .error .missing

/-- Follow a path. The empty path leads nowhere. -/
def follow (d : Disk) (path : String) : Except ReadFault Trail :=
  if path = "" then .error .missing
  else (Path.joinText d.workingDirectory path |>.splitOn "/").foldlM d.step []

/-- What is at a path. -/
def find? (d : Disk) (path : String) : Option FileTree :=
  match d.follow path with
  | .ok trail => some (d.here trail)
  | .error _ => none

/-- There is something at a path. -/
def «exists» (d : Disk) (path : String) : Bool :=
  (d.find? path).isSome

/-- There is a file at a path. -/
def isFile (d : Disk) (path : String) : Bool :=
  match d.find? path with
  | some (.file _) => true
  | _ => false

/-- There is a directory at a path. -/
def isDirectory (d : Disk) (path : String) : Bool :=
  match d.find? path with
  | some (.directory _) => true
  | _ => false

/-- What the directory at a path holds. -/
def contents (d : Disk) (path : String) : List (String × FileTree) :=
  match d.find? path with
  | some (.directory entries) => entries
  | _ => []

/-- The text of the file at a path. -/
def read (d : Disk) (path : String) : Except ReadFault String := do
  match d.here (← d.follow path) with
  | .file (some text) => .ok text
  | .file none => .error .notText
  | .directory _ => .error .isDirectory

/-- The plain absolute path of what is at a path. -/
def realPath? (d : Disk) (path : String) : Option String :=
  match d.follow path with
  | .ok trail => some ("/" ++ String.intercalate "/" (trail.map Prod.fst).reverse)
  | .error _ => none

/-- Write a file. Its directory must be there, and there must be no directory in its place. -/
def write? (d : Disk) (path text : String) : Option Disk :=
  let pieces := (Path.joinText d.workingDirectory path).splitOn "/"
  match pieces.dropLast.foldlM d.step [], pieces.getLast? with
  | .ok trail, some name =>
    match d.here trail with
    | .file _ => none
    | .directory entries =>
      if path = "" ∨ name = "" ∨ name = "." ∨ name = ".." then none
      else
        match Dictionary.find? entries name with
        | some (.directory _) => none
        | _ =>
          some { d with root := d.root.put ((trail.map Prod.fst).reverse ++ [name]) (.file text) }
  | _, _ => none

end Disk

end ElementCatalog
