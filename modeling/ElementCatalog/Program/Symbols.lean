import ElementCatalog.Dictionary
import ElementCatalog.Program.Basic
import ElementCatalog.Source.Literal

/-!
# Symbols — what a file declares, imports and exports

The symbols of a file are collected from its top-level items. Values and types are kept apart; a
class and an enumeration are both. A later declaration of a name replaces an earlier one.
-/

namespace ElementCatalog

open Source (Position Stmt ClassDef)

/-- What a declaration declares. -/
inductive DeclarationNode where
  | classNode (value : Source.ClassDef)
  | functionNode (value : Source.Function)
  | variableNode (init : Option Source.Expr) (type : Option Source.TypeUse)
  | interfaceNode (value : Source.InterfaceDecl)
  | aliasNode (value : Source.AliasDecl)
  | enumNode (members : List Source.EnumMember)

/-- The name of a kind of declarations. -/
def DeclarationNode.kindName : DeclarationNode → String
  | .classNode _ => "class"
  | .functionNode _ => "function"
  | .variableNode _ _ => "variable"
  | .interfaceNode _ => "interface"
  | .aliasNode _ => "type alias"
  | .enumNode _ => "enum"

/-- A top-level declaration of a file. -/
structure Declaration where
  name : String
  file : SourceFile
  node : DeclarationNode
  /-- The places that documentation may stand before, outermost first. -/
  anchors : List Position
  start : Position

/-- What tells declarations apart: the file and the place where they start. -/
abbrev DeclarationKey := Nat × Nat

/-- The key of a declaration. -/
def Declaration.key (d : Declaration) : DeclarationKey :=
  (d.file.id, d.start.offset)

/-- The two worlds of names. -/
inductive NameSpace where
  | value
  | type
deriving DecidableEq, Repr

/-- A declaration lives in a world of names. -/
def DeclarationNode.livesIn : NameSpace → DeclarationNode → Bool
  | _, .classNode _ => true
  | _, .enumNode _ => true
  | .value, .functionNode _ => true
  | .value, .variableNode _ _ => true
  | .type, .interfaceNode _ => true
  | .type, .aliasNode _ => true
  | _, _ => false

/-- A name that a file imports from another module. -/
structure Import where
  localName : String
  /-- The name in the other module: `default` for its default export, `*` for all of it. -/
  imported : String
  specifier : String
deriving DecidableEq, Repr

/-- A name that a file exports. -/
inductive Export where
  | ownName (exported localName : String)
  | fromModule (exported imported specifier : String)
  | allOf (specifier : String)
deriving DecidableEq, Repr

/-- The symbols of a file. -/
structure FileSymbols where
  values : Dictionary Declaration := []
  types : Dictionary Declaration := []
  imports : List Import := []
  exports : List Export := []

instance : Inhabited FileSymbols := ⟨{}⟩

namespace FileSymbols

/-- The declaration of a name in one of the two worlds. -/
def declared? (symbols : FileSymbols) (space : NameSpace) (name : String) : Option Declaration :=
  match space with
  | .value => Dictionary.find? symbols.values name
  | .type => Dictionary.find? symbols.types name

/-- The import that binds a name. -/
def import? (symbols : FileSymbols) (localName : String) : Option Import :=
  symbols.imports.find? (·.localName == localName)

/-- The name of this file that is exported under a name. -/
def ownExport? (symbols : FileSymbols) (exported : String) : Option String :=
  symbols.exports.findSome? fun
    | .ownName outer localName => if outer = exported then some localName else none
    | _ => none

/-! ## Collecting -/

/-- The places before which the documentation of a class may stand: its decorators come first. -/
def classAnchors (outer : List Position) (value : ClassDef) : List Position :=
  value.decorators.map (·.start) ++ outer ++ [value.start]

/-- The declarations of a statement; `outer` holds the place of an `export` before it. -/
def declarationsOf (file : SourceFile) (outer : List Position) : Stmt → List Declaration
  | .classDecl name value =>
    [⟨name, file, .classNode value, classAnchors outer value, value.start⟩]
  | .functionDecl name value =>
    [⟨name, file, .functionNode value, outer ++ [value.start], value.start⟩]
  | .variableDecl start declarators =>
    declarators.filterMap fun d =>
      match d.target with
      | .ident name type =>
        some ⟨name, file, .variableNode d.init type, outer ++ [start, d.start], d.start⟩
      | _ => none
  | .interfaceDecl value =>
    [⟨value.name, file, .interfaceNode value, outer ++ [value.start], value.start⟩]
  | .aliasDecl value => [⟨value.name, file, .aliasNode value, outer ++ [value.start], value.start⟩]
  | .enumDecl start name members =>
    [⟨name, file, .enumNode members, outer ++ [start], start⟩]
  | _ => []

/-- Write a declaration into the worlds it lives in. -/
def insert (symbols : FileSymbols) (d : Declaration) : FileSymbols :=
  let write (space : NameSpace) (entries : Dictionary Declaration) : Dictionary Declaration :=
    if d.node.livesIn space then Dictionary.set entries d.name d else entries
  { symbols with values := write .value symbols.values, types := write .type symbols.types }

/-- Add exports. -/
def exporting (symbols : FileSymbols) (exports : List Export) : FileSymbols :=
  { symbols with exports := symbols.exports ++ exports }

/-- Add the default export of a declaration. -/
def addDefault (symbols : FileSymbols) (d : Declaration) : FileSymbols :=
  (symbols.exporting [.ownName "default" d.name]).insert d

/-- Add the symbols of one item of the module. -/
def add (file : SourceFile) (symbols : FileSymbols) : Stmt → FileSymbols
  | .importFrom specifiers source _ =>
    match source.value? with
    | some specifier =>
      { symbols with
        imports := symbols.imports ++
          specifiers.map fun s => ⟨s.localName, s.imported, specifier⟩ }
    | none => symbols
  | .exported start decl =>
    (declarationsOf file [start] decl).foldl
      (fun symbols d => (symbols.exporting [.ownName d.name d.name]).insert d) symbols
  | .exportClass start name value =>
    symbols.addDefault
      ⟨name.getD "default", file, .classNode value, classAnchors [start] value, start⟩
  | .exportFunction start name value =>
    symbols.addDefault ⟨name.getD "default", file, .functionNode value, [start], start⟩
  | .exportInterface start value =>
    symbols.addDefault ⟨value.name, file, .interfaceNode value, [start], start⟩
  | .exportValue _ (.ident name) => symbols.exporting [.ownName "default" name]
  | .exportValue start value =>
    symbols.addDefault ⟨"default", file, .variableNode (some value) none, [start], start⟩
  | .exportNames specifiers source _ =>
    symbols.exporting <| specifiers.map fun s =>
      match source.bind (·.value?) with
      | some specifier => .fromModule s.exported s.inner specifier
      | none => .ownName s.exported s.inner
  | .exportAll source _ =>
    match source.value? with
    | some specifier => symbols.exporting [.allOf specifier]
    | none => symbols
  | item => (declarationsOf file [] item).foldl insert symbols

/-- The symbols of a file. -/
def ofFile (file : SourceFile) : FileSymbols :=
  file.module.items.foldl (add file) {}

end FileSymbols

end ElementCatalog
