/-!
# Paths — locations in a tree of directories

A path is a list of components; the text form separates them with slashes. Two spellings of one
path differ only in repeated or trailing slashes and in single dots after the first component.
-/

namespace ElementCatalog

/-- One step of a path. -/
inductive PathComponent where
  | root
  | here
  | up
  | name (text : String)
deriving DecidableEq, Repr

/-- The text of a component. -/
def PathComponent.text : PathComponent → String
  | .root => "/"
  | .here => "."
  | .up => ".."
  | .name text => text

/-- A path as its components. -/
structure Path where
  components : List PathComponent
deriving DecidableEq, Repr

namespace Path

/-- Read the pieces between the slashes. A single dot counts only at the start of a relative
    path. -/
def ofPieces : (first : Bool) → List String → List PathComponent
  | _, [] => []
  | first, piece :: pieces =>
    if piece = "" then ofPieces first pieces
    else if piece = "." then
      if first then .here :: ofPieces false pieces else ofPieces false pieces
    else if piece = ".." then .up :: ofPieces false pieces
    else .name piece :: ofPieces false pieces

/-- Read the text form. -/
def ofText (text : String) : Path :=
  let pieces := text.splitOn "/"
  if text.startsWith "/" then ⟨.root :: ofPieces false pieces⟩
  else ⟨ofPieces true pieces⟩

/-- Write components with slashes between them. -/
def render : List PathComponent → String
  | [] => ""
  | .root :: rest => "/" ++ String.intercalate "/" (rest.map PathComponent.text)
  | components => String.intercalate "/" (components.map PathComponent.text)

/-- The text form of a path. -/
def text (p : Path) : String :=
  render p.components

/-- The directory that a path lies in; the root and the empty path lie in none. -/
def parent? (p : Path) : Option Path :=
  match p.components.getLast? with
  | none => none
  | some .root => none
  | some _ => some ⟨p.components.dropLast⟩

/-- The last component, if it is a name. -/
def fileName? (p : Path) : Option String :=
  match p.components.getLast? with
  | some (.name text) => some text
  | _ => none

/-- The components of a path below another one. -/
def below? (root p : Path) : Option (List PathComponent) :=
  if root.components.isPrefixOf p.components then some (p.components.drop root.components.length)
  else none

/-- A path lies at or below another one. -/
def isUnder (root p : Path) : Bool :=
  root.components.isPrefixOf p.components

/-- The rank of a component among different kinds. -/
def rank : PathComponent → Nat
  | .root => 0
  | .here => 1
  | .up => 2
  | .name _ => 3

/-- One component comes before another: by kind, then by the bytes of the names. -/
def componentBefore : PathComponent → PathComponent → Bool
  | .name a, .name b => a < b
  | a, b => rank a < rank b

/-- One list of components comes before another, component by component. -/
def before : List PathComponent → List PathComponent → Bool
  | _, [] => false
  | [], _ :: _ => true
  | a :: as, b :: bs => if a = b then before as bs else componentBefore a b

/-- Join texts: an absolute path replaces the base. -/
def joinText (base path : String) : String :=
  if path.startsWith "/" then path
  else if base = "" || base.endsWith "/" then base ++ path
  else base ++ "/" ++ path

/-- Cut a file name at its last dot. A name whose only dot is its first character has no
    extension. -/
def splitName (name : String) : String × Option String :=
  let pieces := name.splitOn "."
  match pieces.getLast? with
  | none => (name, none)
  | some last =>
    let stem := String.intercalate "." pieces.dropLast
    if pieces.length ≤ 1 || stem = "" then (name, none) else (stem, some last)

/-- The part of the file name after its last dot. -/
def extension? (p : Path) : Option String :=
  p.fileName?.bind fun name => (splitName name).2

/-- Replace the extension of the file name. -/
def withExtension (p : Path) (extension : String) : Path :=
  match p.components.getLast? with
  | some (.name text) => ⟨p.components.dropLast ++ [.name ((splitName text).1 ++ "." ++ extension)]⟩
  | _ => p

end Path

end ElementCatalog
