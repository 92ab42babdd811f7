import ElementCatalog.Component.Model
import ElementCatalog.Diagnostic
import ElementCatalog.Path.Normal
import ElementCatalog.Project.Disk
import ElementCatalog.Source.Node
import ElementCatalog.Source.Parse
import ElementCatalog.Source.Literal
import ElementCatalog.Text.Pieces

/-!
# Build configurations — how a project is bundled

The build configuration of a project is found by its name. The name tells the bundler, and the first
federation call with a literal name tells which modules the project shares. Nothing is evaluated:
only literals are read.
-/

namespace ElementCatalog.BuildConfig

open Source (Expr Property Node)

/-! ## Names -/

/-- The names that are looked for in the root of a project, in order. -/
def candidateNames : List String :=
  [ "webpack.config.js", "webpack.config.ts", "webpack.config.mjs", "webpack.config.cjs",
    "rspack.config.js", "rspack.config.ts", "vite.config.ts", "vite.config.js", "vite.config.mjs",
    "rollup.config.js", "rollup.config.mjs" ]

/-- The bundlers that are known by name. -/
def knownBundlers : List String :=
  ["webpack", "rspack", "vite", "rollup"]

/-- A file name is that of some build configuration. -/
def isConfigName (name : String) : Bool :=
  ["js", "ts", "mjs", "cjs"].any fun extension =>
    name.endsWith (".config." ++ extension) && name.length > (".config." ++ extension).length

/-- The bundler that the name of a configuration tells. -/
def bundlerName (path : Path) : String :=
  let name := path.fileName?.getD ""
  match knownBundlers.find? fun known => name.startsWith (known ++ ".") with
  | some known => known
  | none => (name.splitOn ".").headD name

/-- The build configuration of a project. Outside the root only the directory `src` is looked at,
    where the first name in order counts. -/
def find? (d : Disk) (root : String) : Option String :=
  match (candidateNames.map (Path.joinText root)).find? d.isFile with
  | some path => some path
  | none =>
    let directory := Path.joinText root "src"
    let names := (d.contents directory).filterMap fun (name, tree) =>
      if tree.isFile && isConfigName name then some name else none
    (names.mergeSort fun a b => !(b < a)).head?.map (Path.joinText directory)

/-! ## Federation -/

/-- The module that an entry of the shared modules names. -/
def exposedModule? : Property → Option (String × String)
  | .keyValue key value => do
    let name ← key.name?
    let target ←
      match value.entries? with
      | some options => Property.string? options "import"
      | none => value.string?
    some (name, target)
  | _ => none

/-- The shared modules by their outer names. -/
def exposedModules (entries : List Property) : Dictionary String :=
  (entries.filterMap exposedModule?).foldl
    (fun modules (name, target) => Dictionary.set modules name target) []

/-- The federation that options describe. Without a literal name they describe none. -/
def federation? (options : List Property) : Option Federation :=
  (Property.string? options "name").map fun name =>
    let library := (Property.value? options "library").bind Expr.entries?
    { remoteName := name
      libraryType := (library.bind (Property.string? · "type")).or
        (Property.string? options "libraryType")
      exposes := ((Property.value? options "exposes").bind Expr.entries?).map exposedModules }

/-- The federation that is described by the first of some arguments. -/
def describedBy? (args : List Expr) : Option Federation :=
  (args.head?.bind fun arg => arg.argument.entries?).bind federation?

/-- The federation that a node describes. -/
def ofNode? : Node → Option Federation
  | .expr (.new callee _ args) =>
    if callee.name?.any (·.endsWith "ModuleFederationPlugin") then describedBy? args else none
  | .expr (.call _ callee _ args) =>
    if callee.name? = some "federation" then describedBy? args else none
  | _ => none

/-- The federation of a module: that of the first node that describes one. -/
def ofModule? (m : Source.Module) : Option Federation :=
  m.nodes.findSome? ofNode?

/-! ## Reading -/

/-- Read the configuration file at a path. -/
def readFile (d : Disk) (root path : String) : Except Diagnostic Runtime :=
  let refuse (message : String) : Except Diagnostic Runtime :=
    .error (.warningIn .unparsableConfig message (Path.shownUnder (Path.ofText root) path))
  match d.read path with
  | .error fault => refuse ("Failed to read build config " ++ path ++ ": " ++ fault.message)
  | .ok text =>
    match Source.Module.parse? path text with
    | none => refuse ("Failed to parse " ++ path)
    | some m => .ok ⟨bundlerName (Path.ofText path), ofModule? m⟩

/-- Find and read the build configuration of a project; one that is named explicitly is not looked
    for. -/
def load (d : Disk) (root : String) (explicit : Option String) : Except Diagnostic Runtime :=
  match explicit with
  | some relative =>
    let path := Path.joinText root relative
    if d.isFile path then readFile d root path
    else
      .error (.plain .warning .missingBuildConfig ("build config '" ++ path ++ "' does not exist"))
  | none =>
    match find? d root with
    | some path => readFile d root path
    | none =>
      .error (.plain .info .missingBuildConfig "no build config found; runtime bundler is unknown")

/-- How a project is bundled, and what went wrong in finding out. -/
def runtime (d : Disk) (root : String) (explicit : Option String) : Runtime × List Diagnostic :=
  match load d root explicit with
  | .ok runtime => (runtime, [])
  | .error diagnostic => (.unknown, [diagnostic])

end ElementCatalog.BuildConfig
