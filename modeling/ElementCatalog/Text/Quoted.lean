import ElementCatalog.Text.CharClass
import ElementCatalog.Text.Tables.Hidden

/-!
# Quoted texts — a text between double quotes that shows all it holds

The quote, the backslash and everything that would not be seen on its own are written as escapes.
-/

namespace ElementCatalog.Text

/-- Characters that do not show on their own: controls and formats, blanks other than the space,
    marks that join the character before them, and code points without a public meaning. -/
def isHidden (c : Char) : Bool :=
  if c.toNat < 0x7F then c.toNat < 0x20 else inRanges Tables.hidden c

/-- A character inside a quoted text. -/
def quotedChar (c : Char) : List Char :=
  let n := c.toNat
  if n == 0x22 || n == 0x5C then ['\\', c]
  else if n == 0 then ['\\', '0']
  else if n == 9 then ['\\', 't']
  else if n == 10 then ['\\', 'n']
  else if n == 13 then ['\\', 'r']
  else if isHidden c then "\\u\x7b".toList ++ Nat.toDigits 16 n ++ ['\x7d']
  else [c]

/-- A text between double quotes. -/
def quoted (text : String) : String :=
  "\"" ++ String.ofList (text.toList.flatMap quotedChar) ++ "\""

end ElementCatalog.Text
