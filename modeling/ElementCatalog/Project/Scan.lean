import ElementCatalog.Path.Kind
import ElementCatalog.Project.Include

/-!
# Scanning — the source files of a project

All source files below the included directories are found, except those that are ignored and those
inside `node_modules`. A pattern with wildcards is matched against the path of a file as it was
found; a pattern without any ignores a place and everything below it.
-/

namespace ElementCatalog

namespace Scan

/-- The patterns that cover tests and stories. -/
def testFilePatterns : List String :=
  [ "**/*.test.tsx", "**/*.test.ts", "**/*.test.jsx", "**/*.test.js", "**/*.spec.tsx",
    "**/*.spec.ts", "**/*.spec.jsx", "**/*.spec.js", "**/*.stories.tsx", "**/*.stories.ts",
    "**/__tests__/**" ]

/-- What is ignored: places, and the texts that patterns cover. -/
structure Ignores where
  places : List Path
  patterns : List Glob.Pattern

/-- Read ignore patterns. A pattern that cannot be read ignores nothing. -/
def Ignores.ofTexts (root : String) (texts : List String) (tests : Bool) : Ignores :=
  let (wild, plain) := texts.partition Glob.hasWildcard
  { places := plain.map fun p => Path.ofText (Path.joinText root p)
    patterns := (wild ++ if tests then testFilePatterns else []).filterMap Glob.Pattern.ofText? }

/-- A path is ignored. -/
def Ignores.cover (ignores : Ignores) (path : String) : Bool :=
  ignores.places.any (fun place => Path.isUnder place (Path.ofText path)) ||
    ignores.patterns.any fun pattern => pattern.covers path

/-- The places that an include names. -/
def included (d : Disk) (root text : String) : List String :=
  let path := Path.joinText root text
  if Glob.hasWildcard text then Glob.directories d path
  else if d.exists path then [path]
  else []

/-- A directory is entered. -/
def isEntered (name : String) : Bool :=
  name != "node_modules"

/-- The files at or below a place. -/
def filesAt (d : Disk) (path : String) : List String :=
  if (Path.ofText path).fileName?.all isEntered then
    match d.find? path with
    | some (.file _) => [path]
    | some tree =>
      (tree.entriesBelow isEntered path).filterMap fun e => if e.isFile then some e.path else none
    | none => []
  else []

/-- Add a path to paths in order, unless an equal one is there. -/
def insertPath (p : Path) : List Path → List Path
  | [] => [p]
  | q :: rest =>
    if p = q then q :: rest
    else if Path.before p.components q.components then p :: q :: rest
    else q :: insertPath p rest

/-- The source files of a project, in the order of their paths. Without includes the whole project
    is scanned. -/
def files (d : Disk) (root : String) (includes ignores : List String) (ignoreTests : Bool) :
    List Path :=
  let places := if includes.isEmpty then [root] else includes.flatMap (included d root)
  let refused := Ignores.ofTexts root ignores ignoreTests
  let found := (places.flatMap (filesAt d)).filter fun path => !refused.cover path
  (found.map Path.ofText).foldl
    (fun files p => if p.isSource then insertPath p files else files) []

end Scan

end ElementCatalog
