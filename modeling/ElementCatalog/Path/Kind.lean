import ElementCatalog.Path.Basic
import ElementCatalog.Text.Pieces

/-!
# Kinds of files — what the name of a file says about it

Source files are told by their extension. Declarations and generated sources are read for their
types but never searched for registrations.
-/

namespace ElementCatalog.Path

/-- The extensions of files that may hold components. -/
def sourceFileExtensions : List String :=
  ["ts", "tsx", "js", "jsx", "mts", "cts", "mjs", "cjs"]

/-- The file may hold components. -/
def isSource (p : Path) : Bool :=
  match p.extension? with
  | some extension => sourceFileExtensions.contains extension
  | none => false

/-- The file holds declarations only or was written by a tool. -/
def isGenerated (p : Path) : Bool :=
  match p.fileName? with
  | some name =>
    [".d.ts", ".d.mts", ".d.cts"].any (fun ending => name.endsWith ending) ||
      Text.occursIn ".generated.".toList name.toList
  | none => false

end ElementCatalog.Path
