import ElementCatalog.Config.Basic
import ElementCatalog.Path.Module
import ElementCatalog.Program.Symbols

/-!
# Resolution — the declaration that a name refers to

A name is looked up in its own file first and through the file's imports next. What a module exports
under a name is found by a search through its exports: each export either ends at a declaration or
leads on to another module. No place is searched twice, so the search ends on every graph of
modules. If the exports lead nowhere, the files that the import may mean are asked for the
declaration itself, exported or not.
-/

namespace ElementCatalog

/-- A program with the symbols of its files and the names that are recognized in it. -/
structure Workspace where
  program : Program
  conventions : Conventions
  symbols : Array FileSymbols
  symbols_eq : symbols = (program.files.map FileSymbols.ofFile).toArray

namespace Workspace

/-- The workspace of a program. -/
def ofProgram (program : Program) (conventions : Conventions) : Workspace :=
  ⟨program, conventions, (program.files.map FileSymbols.ofFile).toArray, rfl⟩

/-- The symbols of a file. -/
def symbolsOf (w : Workspace) (file : SourceFile) : FileSymbols :=
  w.symbols[file.id]?.getD {}

/-- The file that a specifier means, seen from another file. -/
def moduleFile? (w : Workspace) (source : SourceFile) (specifier : String) : Option SourceFile :=
  (Path.moduleCandidates source.path specifier).findSome? w.program.file?

/-! ## Exports -/

/-- Where an export leads. -/
inductive ExportStep where
  | declared (declaration : Declaration)
  | lookIn (file : SourceFile) (exported : String)

/-- Where an export leads under the name that it has outside. A name that the file only imports
    leads on to the imported module. -/
def namedStep? (w : Workspace) (space : NameSpace) (file : SourceFile) (exported : String) :
    Export → Option ExportStep
  | .ownName outer localName =>
    if outer = exported then
      match (w.symbolsOf file).declared? space localName with
      | some declaration => some (.declared declaration)
      | none =>
        ((w.symbolsOf file).import? localName).bind fun i =>
          (w.moduleFile? file i.specifier).map fun target => .lookIn target i.imported
    else none
  | .fromModule outer imported specifier =>
    if outer = exported ∧ imported ≠ "*" then
      (w.moduleFile? file specifier).map fun target => .lookIn target imported
    else none
  | .allOf _ => none

/-- Where an export leads that hands on everything of another module but its default export. -/
def handedOnStep? (w : Workspace) (file : SourceFile) (exported : String) :
    Export → Option ExportStep
  | .allOf specifier =>
    if exported = "default" then none
    else (w.moduleFile? file specifier).map fun target => .lookIn target exported
  | .ownName _ _ => none
  | .fromModule _ _ _ => none

/-- Where the exports of a file under a name lead. Everything that other modules hand on comes
    last. -/
def exportSteps (w : Workspace) (space : NameSpace) (file : SourceFile) (exported : String) :
    List ExportStep :=
  let exports := (w.symbolsOf file).exports
  exports.filterMap (w.namedStep? space file exported) ++
    exports.filterMap (w.handedOnStep? file exported)

/-- Search through pending steps; `visited` holds the files and names that have been searched. The
    search takes at most `fuel` steps. -/
def searchExports (w : Workspace) (space : NameSpace) : (fuel : Nat) →
    (visited : List (Nat × String)) → (pending : List ExportStep) → Option Declaration
  | 0, _, _ => none
  | _ + 1, _, [] => none
  | _ + 1, _, .declared declaration :: _ => some declaration
  | fuel + 1, visited, .lookIn file exported :: pending =>
    if visited.contains (file.id, exported) then searchExports w space fuel visited pending
    else
      searchExports w space fuel ((file.id, exported) :: visited)
        (w.exportSteps space file exported ++ pending)

/-- The number of imports and exports of all files. -/
def linkCount (w : Workspace) : Nat :=
  (w.symbols.toList.flatMap FileSymbols.imports).length +
    (w.symbols.toList.flatMap FileSymbols.exports).length

/-- A number of steps that no search exceeds: every file is searched for at most one name more than
    there are links, and has at most as many steps as there are links. -/
def searchBound (w : Workspace) : Nat :=
  (w.program.files.length + 1) * (w.linkCount + 1) * (2 * w.linkCount + 1) + 2

/-- The declaration that a file exports under a name. -/
def exported? (w : Workspace) (space : NameSpace) (file : SourceFile) (name : String) :
    Option Declaration :=
  w.searchExports space w.searchBound [] [.lookIn file name]

/-! ## Names -/

/-- The declaration that an import names in one of the files that it may mean, exported or not. -/
def unexported? (w : Workspace) (space : NameSpace) (source : SourceFile) (i : Import) :
    Option Declaration :=
  if i.imported = "*" then none
  else
    (Path.fallbackCandidates source.path i.specifier).findSome? fun candidate =>
      (w.program.file? candidate).bind fun file =>
        let symbols := w.symbolsOf file
        let name :=
          if i.imported = "default" then (symbols.ownExport? "default").getD "default"
          else i.imported
        symbols.declared? space name

/-- The declaration that an import brings in. -/
def imported? (w : Workspace) (space : NameSpace) (source : SourceFile) (i : Import) :
    Option Declaration :=
  ((w.moduleFile? source i.specifier).bind fun target => w.exported? space target i.imported).or
    (w.unexported? space source i)

/-- The declaration that a name refers to in a file. -/
def resolve? (w : Workspace) (space : NameSpace) (file : SourceFile) (name : String) :
    Option Declaration :=
  let symbols := w.symbolsOf file
  (symbols.declared? space name).or ((symbols.import? name).bind (w.imported? space file))

/-- The value that a name refers to in a file. -/
def value? (w : Workspace) (file : SourceFile) (name : String) : Option Declaration :=
  w.resolve? .value file name

/-- The type that a name refers to in a file. -/
def type? (w : Workspace) (file : SourceFile) (name : String) : Option Declaration :=
  w.resolve? .type file name

/-- The type that a qualified name refers to in a file, where its first part is a namespace
    import. -/
def qualifiedType? (w : Workspace) (file : SourceFile) (outer name : String) :
    Option Declaration := do
  let i ← (w.symbolsOf file).import? outer
  guard (i.imported == "*")
  let target ← w.moduleFile? file i.specifier
  w.exported? .type target name

end Workspace

end ElementCatalog
