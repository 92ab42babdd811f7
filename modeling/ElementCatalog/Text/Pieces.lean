import ElementCatalog.Text.CharClass

/-!
# Pieces of text — trimming, lines and words

Texts are lists of characters here, so that every operation is a short recursion. Lines end at a
line feed, and one carriage return before it belongs to the line end.
-/

namespace ElementCatalog.Text

/-- Drop the blank characters at the front. -/
def trimStart (s : List Char) : List Char :=
  s.dropWhile isBlank

/-- Drop the blank characters at the end. -/
def trimEnd (s : List Char) : List Char :=
  (s.reverse.dropWhile isBlank).reverse

/-- Drop the blank characters at both ends. -/
def trim (s : List Char) : List Char :=
  trimEnd (trimStart s)

/-- Cut at every character that satisfies `p`; the cutting characters are dropped. -/
def splitWhere (p : Char → Bool) : List Char → List (List Char)
  | [] => [[]]
  | c :: rest =>
    if p c then [] :: splitWhere p rest
    else
      match splitWhere p rest with
      | [] => [[c]]
      | piece :: pieces => (c :: piece) :: pieces

/-- The non-empty stretches of characters that are not blank. -/
def words (s : List Char) : List (List Char) :=
  (splitWhere isBlank s).filter fun word => !word.isEmpty

/-- Drop one carriage return at the end of a line. -/
def dropReturn (line : List Char) : List Char :=
  if line.getLast? = some '\r' then line.dropLast else line

/-- The lines of a text. The piece after the last line feed is a line only if it is not empty, and
    it keeps a carriage return at its end. -/
def lines (s : List Char) : List (List Char) :=
  let pieces := splitWhere (· == '\n') s
  match pieces.getLast? with
  | none => []
  | some last => pieces.dropLast.map dropReturn ++ (if last.isEmpty then [] else [last])

/-- The texts joined with a separator between neighbours. -/
def joinWith (separator : List Char) : List (List Char) → List Char
  | [] => []
  | [piece] => piece
  | piece :: pieces => piece ++ separator ++ joinWith separator pieces

/-- What follows `head` in a text that starts with it. -/
def stripStart? : (head text : List Char) → Option (List Char)
  | [], text => some text
  | _ :: _, [] => none
  | h :: head, c :: text => if h = c then stripStart? head text else none

/-- What precedes `tail` in a text that ends with it. -/
def stripEnd? (tail text : List Char) : Option (List Char) :=
  (stripStart? tail.reverse text.reverse).map List.reverse

/-- A text occurs somewhere in another one. -/
def occursIn (piece : List Char) : List Char → Bool
  | [] => piece.isEmpty
  | c :: rest => (stripStart? piece (c :: rest)).isSome || occursIn piece rest

end ElementCatalog.Text
