import ElementCatalog.Text.LetterCase
import ElementCatalog.Text.Pieces

/-!
# Kebab case — the words of an identifier, lowercased and joined with hyphens

An identifier is cut into letters with their marks first, so that a combining mark never separates
from its letter. Word boundaries fall at separators, which disappear, and between letters and
digits, small and capital letters, and before the last capital of a run that a small letter ends.
-/

namespace ElementCatalog.Text

/-- A character extends the one before it. -/
def extendsLast (c : Char) : Bool :=
  inRanges Tables.extenders c

/-- How much of a row of joined pictographs has been read. -/
inductive PictographRow where
  | none
  /-- A pictograph, with the marks that extend it. -/
  | pictograph
  /-- A pictograph and a joiner after it. -/
  | joined
deriving DecidableEq, Repr

/-- The row after one more character. -/
def PictographRow.after (row : PictographRow) (c : Char) : PictographRow :=
  if inRanges Tables.pictographs c then .pictograph
  else if row = .none then .none
  else if c.toNat == 0x200D then .joined
  else if extendsLast c then .pictograph
  else .none

/-- Two neighbouring characters belong to one user-perceived character, where `row` is what the
    first of them ends. Scripts without case have further rules; they cannot move a word boundary
    and are left out. -/
def joins (row : PictographRow) (a b : Char) : Bool :=
  if inRanges Tables.controls a || inRanges Tables.controls b then a == '\r' && b == '\n'
  else
    extendsLast b || inRanges Tables.spacingMarks b || inRanges Tables.prependedMarks a ||
      (row = .joined && inRanges Tables.pictographs b)

/-- The user-perceived characters of a text after a row of pictographs. -/
def clustersAfter (row : PictographRow) : List Char → List (List Char)
  | [] => []
  | [c] => [[c]]
  | a :: b :: rest =>
    match clustersAfter (row.after a) (b :: rest) with
    | [] => [[a]]
    | cluster :: more =>
      if joins (row.after a) a b then (a :: cluster) :: more else [a] :: cluster :: more

/-- The user-perceived characters of a text. -/
def clusters (text : List Char) : List (List Char) :=
  clustersAfter .none text

/-- What a user-perceived character is to a word boundary. -/
inductive Letter where
  | separator
  | small
  | capital
  | digit
  | other
deriving DecidableEq, Repr

/-- Classify a user-perceived character. A letter is one whose two cases differ. -/
def letterOf (cluster : List Char) : Letter :=
  if cluster = ['_'] ∨ cluster = ['-'] ∨ cluster = [' '] then .separator
  else if cluster.all isDigit then .digit
  else
    let up := upper cluster
    let low := lower cluster
    if up = low then .other
    else if cluster = up then .capital
    else if cluster = low then .small
    else .other

/-- A word ends after the first of the given letters. -/
def endsWord : List Letter → Bool
  | .small :: .capital :: _ => true
  | .small :: .digit :: _ => true
  | .capital :: .digit :: _ => true
  | .digit :: .small :: _ => true
  | .digit :: .capital :: _ => true
  | .capital :: .capital :: .small :: _ => true
  | _ => false

/-- The words of an identifier that is given as user-perceived characters with their classes.
    There is always at least one word, and neighbouring separators have an empty word between. -/
def wordsOf : List (List Char × Letter) → List (List Char)
  | [] => [[]]
  | (cluster, letter) :: rest =>
    let more := wordsOf rest
    if letter = .separator then [] :: more
    else if endsWord (letter :: rest.map Prod.snd) then cluster :: more
    else
      match more with
      | [] => [cluster]
      | word :: words => (cluster ++ word) :: words

/-- The external spelling of an identifier: `firstName` becomes `first-name`. -/
def kebabCase (name : String) : String :=
  let pieces := (clusters name.toList).map fun cluster => (cluster, letterOf cluster)
  String.ofList (joinWith ['-'] ((wordsOf pieces).map lower))

end ElementCatalog.Text
