import ElementCatalog.Path.Normal

/-!
# Module paths — the files that a module specifier may mean

Only relative specifiers name files of the project. Extensions are appended, never substituted, so
that `./button.element` finds `button.element.ts`.
-/

namespace ElementCatalog.Path

/-- The extensions tried, in order, when a specifier leaves its own out. -/
def moduleExtensions : List String :=
  ["ts", "tsx", "d.ts", "js", "jsx", "mts", "cts", "mjs", "cjs"]

/-- A specifier names a file relative to the importing one. -/
def isRelativeSpecifier (specifier : String) : Bool :=
  specifier == "." || specifier == ".." || specifier.startsWith "./" || specifier.startsWith "../"

/-- The location that a relative specifier names before any extension is tried. -/
def specifierBase? (fromFile : Path) (specifier : String) : Option Path :=
  if isRelativeSpecifier specifier then
    fromFile.parent?.map fun directory => resolveFrom directory specifier
  else none

/-- The files that a specifier may mean, in order of preference: the exact location, the location
    with each extension appended, and the index files inside it. -/
def moduleCandidates (fromFile : Path) (specifier : String) : List Path :=
  match specifierBase? fromFile specifier with
  | none => []
  | some base =>
    base ::
      moduleExtensions.map (fun e => ofText (base.text ++ "." ++ e)) ++
      moduleExtensions.map (fun e => ofText (joinText base.text ("index." ++ e)))

/-- The source extensions that an emitted extension stands for. -/
def sourceExtensions : Option String → List String
  | some "js" => ["ts", "tsx", "d.ts"]
  | some "jsx" => ["ts", "tsx", "d.ts"]
  | some "mjs" => ["mts", "d.mts"]
  | some "cjs" => ["cts", "d.cts"]
  | _ => []

/-- Add a path to a list that does not hold it yet. -/
def addNew (paths : List Path) (p : Path) : List Path :=
  if paths.contains p then paths else paths ++ [p]

/-- The module candidates, followed by the sources of an emitted file (`./button.js` may mean
    `./button.ts`). -/
def fallbackCandidates (fromFile : Path) (specifier : String) : List Path :=
  let candidates := moduleCandidates fromFile specifier
  match specifierBase? fromFile specifier with
  | none => candidates
  | some base =>
    (sourceExtensions base.extension?).foldl
      (fun paths e => addNew paths (base.withExtension e)) candidates

end ElementCatalog.Path
