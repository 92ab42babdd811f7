import ElementCatalog.Project.Analysis
import ElementCatalog.Project.ConfigFile
import ElementCatalog.Text.Width

/-!
# Reports — what is told about a run

The catalog itself is kept apart from the report, so that it can be handed on. Warnings are always
told; what is merely informative, and a row for every component, only on demand.
-/

namespace ElementCatalog.CommandLine.Report

/-- A count with its noun. -/
def counted (n : Nat) (one many : String) : String :=
  toString n ++ " " ++ if n = 1 then one else many

/-- The lines about a diagnostic. -/
def diagnosticLines (d : Diagnostic) : List String :=
  let place :=
    match d.file, d.line with
    | some file, some line => ["  --> " ++ file ++ ":" ++ toString line]
    | some file, none => ["  --> " ++ file]
    | none, _ => []
  (d.severity.name ++ ": " ++ d.message ++ "  " ++ d.kind.name) :: place

/-- The greatest width of some texts. -/
def greatestWidth (texts : List String) : Nat :=
  (texts.map Text.width).foldl max 0

/-- The rows of components: tag, implementation and module in columns, then the counts. -/
def componentLines (components : List Component) : List String :=
  let tags := greatestWidth (components.map (·.tagName))
  let implementations := greatestWidth (components.map (·.implementation))
  components.map fun c =>
    "  " ++ Text.padEnd tags c.tagName ++ "  " ++ Text.padEnd implementations c.implementation ++
      "  " ++ c.modulePath ++ "  " ++ toString c.properties.length ++ "p/" ++
      toString c.events.length ++ "e"

/-- The line that sums up an extraction. -/
def summaryLine (a : Analysis) (output : Option String) : String :=
  let components := a.catalog.components
  let properties := (components.flatMap (·.properties)).length
  let events := (components.flatMap (·.events)).length
  "✓ Extracted " ++ counted components.length "component" "components" ++
    " (" ++ counted properties "property" "properties" ++
    ", " ++ counted events "event" "events" ++
    ") from " ++ toString a.filesScanned ++ " source " ++
    (if a.filesScanned = 1 then "file" else "files") ++
    (output.map (" into " ++ ·)).getD ""

/-- The line about the bundling. -/
def bundlerLine (r : Runtime) : String :=
  "  bundler: " ++ r.bundler ++
    (r.federation.map fun f => " (federation remote " ++ f.remoteName ++ ")").getD ""

/-- The line that counts the warnings, if there are any. -/
def warningLines (warnings : Nat) : List String :=
  if warnings = 0 then []
  else ["warning: " ++ counted warnings "warning" "warnings" ++ " emitted"]

/-- The report on an extraction. -/
def extraction (a : Analysis) (output : Option String) (verbose : Bool) : List String :=
  (a.diagnostics.filter fun d => d.isWarning || verbose).flatMap diagnosticLines ++
    (if verbose then componentLines a.catalog.components else []) ++
    [summaryLine a output, bundlerLine a.catalog.runtime] ++
    warningLines (Diagnostic.warningCount a.diagnostics)

/-- The report on the making of a configuration file. -/
def initialization (created : Bool) : List String :=
  if created then ["✓ Created " ++ ConfigFile.fileName]
  else ["✘ " ++ ConfigFile.fileName ++ " already exists"]

end ElementCatalog.CommandLine.Report
