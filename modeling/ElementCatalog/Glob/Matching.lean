import ElementCatalog.Glob.Pattern

/-!
# Matching — which texts a pattern covers

A star covers any text, separators included; two stars cover any number of whole leading components,
and at the end of a pattern everything that is left.
-/

namespace ElementCatalog.Glob

/-- All tails of a text, the text itself and the empty one included. -/
def tails : List Char → List (List Char)
  | [] => [[]]
  | c :: rest => (c :: rest) :: tails rest

/-- The tails that follow a separator. -/
def tailsAfterSeparators : List Char → List (List Char)
  | [] => []
  | c :: rest =>
    if c = '/' then rest :: tailsAfterSeparators rest else tailsAfterSeparators rest

/-- A character is in a set. -/
def CharSet.has (set : CharSet) (c : Char) : Bool :=
  set.any fun (first, last) => first ≤ c && c ≤ last

/-- The token covers a single character. -/
def Token.covers (c : Char) : Token → Bool
  | .literal d => c == d
  | .anyChar => true
  | .oneOf set => set.has c
  | .noneOf set => !set.has c
  | .anyText => false
  | .anyComponents => false

/-- A list of tokens covers a text. -/
def covers : List Token → List Char → Bool
  | [], text => text.isEmpty
  | .anyText :: tokens, text => (tails text).any (covers tokens)
  | .anyComponents :: tokens, text =>
    tokens.isEmpty || (text :: tailsAfterSeparators text).any (covers tokens)
  | token :: tokens, text =>
    match text with
    | [] => false
    | c :: rest => token.covers c && covers tokens rest

/-- A pattern covers a text. -/
def Pattern.covers (pattern : Pattern) (text : String) : Bool :=
  Glob.covers pattern.tokens text.toList

end ElementCatalog.Glob
