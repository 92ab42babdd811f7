import ElementCatalog.Text.Tables.LetterCase
import ElementCatalog.Text.Tables.Marks
import ElementCatalog.Text.Tables.Words

/-!
# Character classes — membership in the character tables

Every class is a Boolean test on characters. ASCII characters are decided by comparison, all others
by a search in the tables.
-/

namespace ElementCatalog.Text

/-- A character lies in one of the ranges of a table. -/
def inRanges (table : List (Nat × Nat)) (c : Char) : Bool :=
  table.any fun (first, last) => first ≤ c.toNat && c.toNat ≤ last

/-- A character lies on one of the strided runs of a table. -/
def inRuns (table : List (Nat × Nat × Nat)) (c : Char) : Bool :=
  table.any fun (first, last, stride) =>
    first ≤ c.toNat && c.toNat ≤ last && (c.toNat - first) % stride == 0

/-- Blank characters: everything with the White_Space property. -/
def isBlank (c : Char) : Bool :=
  let n := c.toNat
  (9 ≤ n && n ≤ 13) || n == 0x20 || n == 0x85 || n == 0xA0 || n == 0x1680 ||
    (0x2000 ≤ n && n ≤ 0x200A) || n == 0x2028 || n == 0x2029 || n == 0x202F || n == 0x205F ||
    n == 0x3000

/-- ASCII letters. -/
def isAsciiLetter (c : Char) : Bool :=
  ('a' ≤ c && c ≤ 'z') || ('A' ≤ c && c ≤ 'Z')

/-- ASCII digits. -/
def isDigit (c : Char) : Bool :=
  '0' ≤ c && c ≤ '9'

/-- Characters with the Uppercase property. -/
def isUppercase (c : Char) : Bool :=
  if c.toNat < 128 then 'A' ≤ c && c ≤ 'Z' else inRuns Tables.uppercase c

/-- Characters that have a case. -/
def isCased (c : Char) : Bool :=
  if c.toNat < 128 then isAsciiLetter c else inRuns Tables.cased c

/-- Characters that case mapping looks through. -/
def isCaseIgnorable (c : Char) : Bool :=
  inRanges Tables.caseIgnorable c

/-- Characters of words: letters, marks, digits, connectors and joiners. -/
def isWordCharacter (c : Char) : Bool :=
  if c.toNat < 128 then isAsciiLetter c || isDigit c || c == '_'
  else inRanges Tables.wordCharacters c

/-- Characters that may start an identifier of a script. -/
def isIdentifierStart (c : Char) : Bool :=
  if c.toNat < 128 then isAsciiLetter c || c == '_' || c == '$'
  else inRanges Tables.identifierStarts c

/-- Characters that may continue an identifier of a script; the two joiners are among them. -/
def isIdentifierPart (c : Char) : Bool :=
  if c.toNat < 128 then isAsciiLetter c || isDigit c || c == '_' || c == '$'
  else inRanges Tables.identifierParts c || c.toNat == 0x200C || c.toNat == 0x200D

end ElementCatalog.Text
