import ElementCatalog.Glob.Matching
import ElementCatalog.Project.Disk

/-!
# Includes — the directories that a pattern names

A pattern names directories one component at a time: a plain component is one entry, a component
with wildcards every entry that it covers, and two stars everything at any depth below.
-/

namespace ElementCatalog.Glob

/-- A component of a pattern of paths. -/
inductive Part where
  | plain (name : String)
  | wild (pattern : Pattern)
  | anyDepth

/-- The character of a token that stands for itself. -/
def Token.character? : Token → Option Char
  | .literal c => some c
  | _ => none

/-- The text of a pattern without wildcards. -/
def plainText? (pattern : Pattern) : Option String :=
  (pattern.tokens.mapM Token.character?).map String.ofList

/-- Read one component. -/
def part? (text : String) : Option Part :=
  (Pattern.ofText? text).map fun pattern =>
    if pattern.tokens = [.anyComponents] then .anyDepth
    else
      match plainText? pattern with
      | some name => .plain name
      | none => .wild pattern

/-- Two components that reach any depth are as good as one. -/
def joinDepths : List Part → List Part
  | .anyDepth :: rest =>
    match joinDepths rest with
    | .anyDepth :: others => .anyDepth :: others
    | others => .anyDepth :: others
  | part :: rest => part :: joinDepths rest
  | [] => []

/-- The components of an absolute pattern. -/
def parts? (text : String) : Option (List Part) := do
  let _ ← Pattern.ofText? text
  let pieces := (text.splitOn "/").dropWhile (· == "")
  let pieces := if pieces.getLast? = some "" then pieces.dropLast else pieces
  (pieces.mapM part?).map joinDepths

/-- A component covers a name. -/
def Part.covers (name : String) : Part → Bool
  | .plain text => text == name
  | .wild pattern => pattern.covers name
  | .anyDepth => true

/-- The dots that a component with wildcards covers: one that starts with a dot can mean the
    directory itself or the one above it. -/
def dots (pattern : Pattern) : List String :=
  match pattern.tokens with
  | .literal '.' :: _ => [".", ".."].filter pattern.covers
  | _ => []

/-- The paths that components name, from a directory on. -/
def pathsFrom (d : Disk) : List Part → (path : String) → List String
  | [], path => [path]
  | .plain name :: rest, path =>
    let next := Path.joinText path name
    if d.isDirectory path && (name == "." || name == ".." || d.exists next) then
      pathsFrom d rest next
    else []
  | .wild pattern :: rest, path =>
    let names := ((d.contents path).map Prod.fst).filter pattern.covers
    (names ++ if d.isDirectory path then dots pattern else []).flatMap fun name =>
      pathsFrom d rest (Path.joinText path name)
  | [.anyDepth], path => (below path).filterMap fun e => if e.isFile then none else some e.path
  | .anyDepth :: part :: rest, path =>
    ((below path).filter fun e => part.covers e.name).flatMap fun e => pathsFrom d rest e.path
where
  /-- Everything below a directory. -/
  below (path : String) : List Entry :=
    ((d.find? path).map (FileTree.entriesBelow (fun _ => true) path)).getD []

/-- The directories that an absolute pattern names. -/
def directories (d : Disk) (text : String) : List String :=
  match parts? text with
  | some parts => (pathsFrom d parts "/").filter d.isDirectory
  | none => []

end ElementCatalog.Glob
