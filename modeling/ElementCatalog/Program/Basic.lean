import ElementCatalog.Path.Kind
import ElementCatalog.Path.Normal
import ElementCatalog.Source.Parse

/-!
# Programs — the files of a project that have been read

A program holds every file that was parsed, in the order of their paths; the place of a file in this
order identifies it. Files are found again by their normal path.
-/

namespace ElementCatalog

/-- A file that has been read and parsed but has no place in a program yet. -/
structure ParsedFile where
  path : Path
  module : Source.Module
  /-- Registrations are searched for in this file. -/
  discoverable : Bool

/-- A file of a program. -/
structure SourceFile where
  /-- The place of the file in its program. -/
  id : Nat
  path : Path
  /-- The path as it is shown: relative to the root of the project, if it lies below it. -/
  shownPath : String
  module : Source.Module
  discoverable : Bool

instance : Inhabited SourceFile := ⟨⟨0, ⟨[]⟩, "", ⟨[], []⟩, false⟩⟩

/-- The documentation text at the first of some places that has one. -/
def SourceFile.docTextAt? (file : SourceFile) (anchors : List Source.Position) : Option String :=
  anchors.findSome? file.module.docAt?

/-- The files of a project. A file is identified by its place among them. -/
structure Program where
  root : Path
  files : List SourceFile
  id_eq_place : ∀ (place : Nat) (file : SourceFile), files[place]? = some file → file.id = place

namespace Program

/-- One file does not come after another in the order of paths. -/
def inOrder (a b : ParsedFile) : Bool :=
  !Path.before b.path.components a.path.components

/-- A parsed file at its place in a program. -/
def placed (root : Path) (file : ParsedFile) (place : Nat) : SourceFile :=
  { id := place
    path := file.path
    shownPath := Path.shownUnder root file.path.text
    module := file.module
    discoverable := file.discoverable }

/-- Files that are numbered in order stand at the place that their number tells. -/
theorem id_eq_place_of_zipIdx {root : Path} {parsed : List ParsedFile} (place : Nat)
    (file : SourceFile)
    (h : (parsed.zipIdx.map fun (file, place) => placed root file place)[place]? = some file) :
    file.id = place := by
  rw [List.getElem?_map, List.getElem?_zipIdx] at h
  cases hp : parsed[place]? with
  | none =>
      rw [hp] at h
      exact nomatch h
  | some p =>
      rw [hp] at h
      have hfile : placed root p (0 + place) = file := Option.some.inj h
      rw [← hfile]
      exact Nat.zero_add place

/-- The program of some parsed files. -/
def ofParsed (root : Path) (parsed : List ParsedFile) : Program :=
  { root := root
    files := (parsed.mergeSort inOrder).zipIdx.map fun (file, place) => placed root file place
    id_eq_place := id_eq_place_of_zipIdx }

/-- The file with a normal path. Of several files with one path it is the last. -/
def file? (program : Program) (path : Path) : Option SourceFile :=
  program.files.reverse.find? fun file => file.path == path

/-- The file with a path relative to the root. -/
def fileAt? (program : Program) (relative : String) : Option SourceFile :=
  program.file? (Path.resolveFrom program.root relative)

/-- The files in which registrations are searched for. -/
def discoverableFiles (program : Program) : List SourceFile :=
  program.files.filter (·.discoverable)

/-- Parse one source, under its path relative to the root. A source that cannot be parsed gives its
    path. -/
def parseSource (root : Path) : String × String → Except Path ParsedFile
  | (relative, text) =>
    let path := Path.resolveFrom root relative
    match Source.Module.parse? path.text text with
    | some module => .ok ⟨path, module, !path.isGenerated⟩
    | none => .error path

/-- The program of sources given by their paths relative to the root and their texts. The first
    source that cannot be parsed leaves no program. -/
def ofSources (root : Path) (sources : List (String × String)) : Except Path Program :=
  (sources.mapM (parseSource root)).map (ofParsed root)

end Program

end ElementCatalog
