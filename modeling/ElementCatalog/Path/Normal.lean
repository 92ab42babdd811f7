import ElementCatalog.Path.Basic

/-!
# Normal paths — one spelling for every location

Normalization folds single and double dots away without looking at any directory. A double dot
removes the component before it; where there is none to remove it stays.
-/

namespace ElementCatalog.Path

/-- Take one step from the components collected so far. -/
def step (collected : List PathComponent) : PathComponent → List PathComponent
  | .here => collected
  | .up =>
    match collected.getLast? with
    | none => [.up]
    | some .root => collected ++ [.up]
    | some _ => collected.dropLast
  | .root => [.root]
  | .name text => collected ++ [.name text]

/-- The normal form of a path. -/
def normalize (p : Path) : Path :=
  ⟨p.components.foldl step []⟩

/-- The normal form of a path that is read from a directory. -/
def resolveFrom (directory : Path) (relative : String) : Path :=
  normalize (ofText (joinText directory.text relative))

/-- How a path is shown inside a project: relative to the root, or in full when it lies outside. -/
def shownUnder (root : Path) (pathText : String) : String :=
  match below? root (ofText pathText) with
  | some components => String.intercalate "/" (components.map PathComponent.text)
  | none => pathText

end ElementCatalog.Path
