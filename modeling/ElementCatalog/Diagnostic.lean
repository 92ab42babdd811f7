import ElementCatalog.Json.Value

/-!
# Diagnostics — what went wrong without stopping the analysis

A diagnostic says what was left out and where. The list of diagnostics only grows, in the order in
which they arise.
-/

namespace ElementCatalog

/-- How serious a diagnostic is. -/
inductive Severity where
  | info
  | warning
deriving DecidableEq, Repr

/-- The name of a severity. -/
def Severity.name : Severity → String
  | .info => "info"
  | .warning => "warning"

/-- What went wrong. -/
inductive DiagnosticKind where
  | malformedRegistration
  | unresolvedSymbol
  | unparsableConfig
  | missingBuildConfig
  | parseError
  | duplicateTagName
  | extractionFailed
deriving DecidableEq, Repr

/-- The name of a kind of diagnostic. -/
def DiagnosticKind.name : DiagnosticKind → String
  | .malformedRegistration => "malformed-registration"
  | .unresolvedSymbol => "unresolved-symbol"
  | .unparsableConfig => "unparsable-config"
  | .missingBuildConfig => "missing-build-config"
  | .parseError => "parse-error"
  | .duplicateTagName => "duplicate-tag-name"
  | .extractionFailed => "extraction-failed"

/-- A diagnostic, with the file and the line it is about as far as they are known. -/
structure Diagnostic where
  severity : Severity
  kind : DiagnosticKind
  message : String
  file : Option String
  line : Option Nat
deriving DecidableEq, Repr

namespace Diagnostic

/-- A warning about a line of a file. -/
def warningAt (kind : DiagnosticKind) (message file : String) (line : Nat) : Diagnostic :=
  ⟨.warning, kind, message, some file, some line⟩

/-- A warning about a whole file. -/
def warningIn (kind : DiagnosticKind) (message file : String) : Diagnostic :=
  ⟨.warning, kind, message, some file, none⟩

/-- A diagnostic about no file in particular. -/
def plain (severity : Severity) (kind : DiagnosticKind) (message : String) : Diagnostic :=
  ⟨severity, kind, message, none, none⟩

/-- A diagnostic is a warning. -/
def isWarning (d : Diagnostic) : Bool :=
  d.severity == .warning

/-- A diagnostic as JSON. -/
def toJson (d : Diagnostic) : Json :=
  .object
    ([("severity", .string d.severity.name), ("kind", .string d.kind.name),
        ("message", .string d.message)] ++
      Json.optionalField "file" (d.file.map .string) ++
      Json.optionalField "line" (d.line.map fun n => .int n))

/-- The number of warnings among diagnostics. -/
def warningCount (ds : List Diagnostic) : Nat :=
  ds.countP isWarning

/-- The number of diagnostics of one kind. -/
def countOf (kind : DiagnosticKind) (ds : List Diagnostic) : Nat :=
  ds.countP (·.kind == kind)

end Diagnostic

end ElementCatalog
