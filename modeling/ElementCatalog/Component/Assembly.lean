import ElementCatalog.Component.Events
import ElementCatalog.Component.Properties
import ElementCatalog.Component.Registration

/-!
# Assembly — from registrations to a catalog

Every registration is resolved to its implementation, and the implementation is read. A registration
that fails leaves a diagnostic and nothing else. Of several registrations of one tag that succeed
the last one counts, and a diagnostic tells of every replacement.
-/

namespace ElementCatalog

namespace Workspace

/-! ## Implementations -/

/-- The number of aliases that are followed to an implementation. -/
def aliasDepth : Nat := 8

/-- The name that a variable is an alias of: another variable, or what it wraps. -/
def aliasTarget? (w : Workspace) (d : Declaration) : Option String :=
  match d.node with
  | .variableNode (some init) _ =>
    match init.unwrapped with
    | .ident name => if name = d.name then none else some name
    | .call _ callee _ (first :: _) =>
      if Registration.isWrapper w.conventions callee then
        match first.argument.unwrapped with
        | .ident name => some name
        | _ => none
      else none
    | _ => none
  | _ => none

/-- Follow at most `depth` aliases, as long as their targets are found. -/
def followAliases (w : Workspace) : (depth : Nat) → Declaration → Declaration
  | 0, d => d
  | depth + 1, d =>
    match (w.aliasTarget? d).bind (w.value? d.file) with
    | some target => followAliases w depth target
    | none => d

/-- A warning about a registration. -/
def registrationWarning (kind : DiagnosticKind) (message : String) (file : SourceFile)
    (r : Registration) : Diagnostic :=
  .warningAt kind message file.shownPath r.line

/-- The surface of the implementation of a registration. -/
def surfaceOf (w : Workspace) (file : SourceFile) (r : Registration) :
    Except Diagnostic Surface :=
  match r.target with
  | .inlineClass value => .ok (Surface.ofClass w r.tagName file value)
  | .named name =>
    match w.value? file name with
    | none =>
      .error (registrationWarning .unresolvedSymbol
        ("cannot resolve '" ++ name ++ "' registered as '" ++ r.tagName ++ "'") file r)
    | some declaration =>
      match Surface.ofDeclaration w (w.followAliases aliasDepth declaration) with
      | .ok surface => .ok surface
      | .error fault =>
        .error (registrationWarning .extractionFailed
          ("skipping '" ++ r.tagName ++ "': " ++ fault.message) file r)

/-- The component that an implementation makes of a tag. -/
def componentOf (w : Workspace) (tagName : String) (s : Surface) : Component :=
  { tagName := tagName
    implementation := s.name
    modulePath := s.file.shownPath
    properties := s.properties w
    events := s.events w }

/-- The component that a registration registers. -/
def registered (w : Workspace) (file : SourceFile) (r : Registration) :
    Except Diagnostic Component :=
  (w.surfaceOf file r).map (w.componentOf r.tagName)

/-! ## Books -/

/-- What has been assembled so far. -/
structure Books where
  components : Dictionary Component
  diagnostics : List Diagnostic

/-- The text that tells of a replaced component. -/
def replacementMessage (component previous : Component) : String :=
  "'" ++ component.tagName ++ "' is registered again; '" ++ component.implementation ++
    "' from " ++ component.modulePath ++ " replaces '" ++ previous.implementation ++ "' from " ++
    previous.modulePath

/-- Enter a component at the end of the books. A component of the same tag leaves them. -/
def Books.enter (books : Books) (file : SourceFile) (r : Registration) (component : Component) :
    Books :=
  let told :=
    match Dictionary.find? books.components component.tagName with
    | some previous =>
      [registrationWarning .duplicateTagName (replacementMessage component previous) file r]
    | none => []
  { components :=
      Dictionary.erase books.components component.tagName ++ [(component.tagName, component)]
    diagnostics := books.diagnostics ++ told }

/-- Take one registration into the books. -/
def Books.add (w : Workspace) (books : Books) (r : Registration) : Books :=
  match w.program.files[r.fileId]? with
  | none => books
  | some file =>
    match w.registered file r with
    | .ok component => books.enter file r component
    | .error diagnostic => { books with diagnostics := books.diagnostics ++ [diagnostic] }

/-- The registrations of all files in which they are searched for, and those that cannot be read. -/
def discovered (w : Workspace) : List Registration × List Diagnostic :=
  let perFile := w.program.discoverableFiles.map (Registration.ofFile w.conventions)
  (perFile.flatMap Prod.fst, perFile.flatMap Prod.snd)

/-- The catalog of a workspace, and what went wrong. -/
def assemble (w : Workspace) (runtime : Runtime) : Catalog × List Diagnostic :=
  let (registrations, refused) := w.discovered
  let books := registrations.foldl (Books.add w) ⟨[], refused⟩
  (⟨runtime, Dictionary.values books.components⟩, books.diagnostics)

end Workspace

end ElementCatalog
