/-!
# Glob patterns — reading wildcard patterns

A pattern is a list of tokens. Two stars match whole path components and must stand as one; three
or more stars in a row, and a bracket that is not closed, make no pattern.
-/

namespace ElementCatalog.Glob

/-- The characters inside brackets, as inclusive ranges. -/
abbrev CharSet := List (Char × Char)

/-- One token of a pattern. -/
inductive Token where
  | literal (c : Char)
  | anyChar
  | anyText
  | anyComponents
  | oneOf (set : CharSet)
  | noneOf (set : CharSet)
deriving DecidableEq, Repr

/-- Read the text between brackets: `a-z` is a range, everything else stands for itself. -/
def charSet : List Char → CharSet
  | first :: '-' :: last :: rest => (first, last) :: charSet rest
  | c :: rest => (c, c) :: charSet rest
  | [] => []

/-- Cut at the first closing bracket. -/
def cutAtBracket? : List Char → Option (List Char × List Char)
  | [] => none
  | c :: rest =>
    if c = ']' then some ([], rest)
    else (cutAtBracket? rest).map fun (inside, after) => (c :: inside, after)

/-- Read a bracket expression after its opening bracket. The first character inside is taken as it
    is, so that a closing bracket can be a member. -/
def bracket? (text : List Char) : Option (Token × List Char) :=
  match text with
  | '!' :: first :: rest =>
    (cutAtBracket? rest).map fun (inside, after) => (.noneOf (charSet (first :: inside)), after)
  | '!' :: [] => none
  | first :: rest =>
    (cutAtBracket? rest).map fun (inside, after) => (.oneOf (charSet (first :: inside)), after)
  | [] => none

/-- Read a pattern; `atStart` says that a path component starts here, and `fuel` bounds the number
    of tokens. -/
def tokensFrom : (fuel : Nat) → (atStart : Bool) → List Char → Option (List Token)
  | 0, _, _ => none
  | _ + 1, _, [] => some []
  | fuel + 1, atStart, text =>
    match text with
    | '*' :: '*' :: '*' :: _ => none
    | '*' :: '*' :: rest =>
      if !atStart then none
      else
        match rest with
        | [] => some [.anyComponents]
        | '/' :: rest => (tokensFrom fuel true rest).map (.anyComponents :: ·)
        | _ => none
    | '*' :: rest => (tokensFrom fuel false rest).map (.anyText :: ·)
    | '?' :: rest => (tokensFrom fuel false rest).map (.anyChar :: ·)
    | '[' :: rest =>
      match bracket? rest with
      | none => none
      | some (token, after) => (tokensFrom fuel false after).map (token :: ·)
    | c :: rest => (tokensFrom fuel (c == '/') rest).map (.literal c :: ·)
    | [] => some []

/-- A pattern that has been read. -/
structure Pattern where
  tokens : List Token
deriving DecidableEq, Repr

/-- Read a pattern. -/
def Pattern.ofText? (text : String) : Option Pattern :=
  (tokensFrom (text.length + 1) true text.toList).map Pattern.mk

/-- A text has wildcards and is read as a pattern; without any it names a location. -/
def hasWildcard (text : String) : Bool :=
  text.toList.any fun c => c == '*' || c == '?'

end ElementCatalog.Glob
