import ElementCatalog.Source.Grammar.Markup
import ElementCatalog.Source.Grammar.Modules

/-!
# Reading modules — from the text of a source to its tree

The rules are tied together by depth: the grammar of depth zero reads nothing, and every rule of the
next grammar may use the one before. A source cannot nest deeper than it is long, so a depth taken
from its length leaves nothing out.
-/

namespace ElementCatalog.Source

/-- The grammar that nests to a depth. -/
def Grammar.ofDepth : Nat → Grammar
  | 0 => .empty
  | n + 1 =>
    { type := fun c => (ofDepth n).typeRule c
      plainType := fun c => (ofDepth n).plainTypeRule c
      params := fun c => (ofDepth n).paramsRule c
      binding := fun c => (ofDepth n).bindingRule c
      decorator := fun c => (ofDepth n).decoratorRule c
      heritage := fun c => (ofDepth n).heritageRule c
      expression := fun c => (ofDepth n).expressionRule c
      assignment := fun c => (ofDepth n).assignmentRule c
      binary := fun c => (ofDepth n).binaryRule c
      operation := fun least c => (ofDepth n).operationRule least c
      unary := fun c => (ofDepth n).unaryRule c
      accessed := fun c => (ofDepth n).accessedRule c
      creation := fun nested c => (ofDepth n).creationRule nested c
      object := fun c => (ofDepth n).objectRule c
      element := fun c => (ofDepth n).elementRule c
      stmt := fun c => (ofDepth n).stmtRule c
      listedStmt := fun c => (ofDepth n).listedStmtRule c
      moduleItem := fun c => (ofDepth n).moduleItemRule c }

/-- All items of a module, to the end of the source. -/
def moduleItems (g : Grammar) : Parser (List Stmt) :=
  Parser.many Parser.onFinish g.moduleItem

/-- The number of characters before the text of a module: a byte order mark, and a first line that
    names an interpreter. -/
def skipPreamble (text : List Char) : List Char × Position :=
  let text :=
    match text with
    | c :: rest => if c.toNat == 0xFEFF then rest else text
    | [] => []
  match text with
  | '#' :: '!' :: _ =>
    let line := text.takeWhile (!isLineEnd ·)
    (text.drop line.length, ⟨line.length, 1⟩)
  | _ => (text, ⟨0, 1⟩)

/-- The cursor on the first token of a source, which counts as the start of a line. -/
def Cursor.first (settings : Settings) (text : List Char) : Cursor :=
  let (text, place) := skipPreamble text
  let blank : Cursor :=
    { token := .finish, start := place, lineBreak := true, here := text, hereAt := place
      rest := text, restAt := place, size := place.offset + text.length, docs := []
      arrowStart := none, settings := settings }
  blank.standBehind (Gap.pass false .blanks text { lineBreak := true }) text place

/-- The file holds a plain source, in which angle brackets are never markup. -/
def isPlainSource (path : String) : Bool :=
  [".ts", ".mts", ".cts"].any fun ending => path.endsWith ending

/-- What the name of a file says about the source in it. -/
def Settings.ofPath (path : String) : Settings :=
  { markup := !isPlainSource path, ambient := path.endsWith ".d.ts" }

/-- The depth of the grammar for a source of a length. -/
def grammarDepth (length : Nat) : Nat :=
  8 * length + 64

/-- Read a source into a module. The name of its file decides whether markup is allowed. -/
def Module.parse? (path text : String) : Option Module :=
  let chars := text.toList
  match moduleItems (.ofDepth (grammarDepth chars.length)) (.first (.ofPath path) chars) with
  | .ok items c => some ⟨items, c.docs⟩
  | .error _ _ => none

end ElementCatalog.Source
