import ElementCatalog.Text.CharClass

/-!
# Letter case — full case mapping of characters and texts

Case mapping is the full one: a character may map to several. Lowercasing a text writes the final
form of sigma where the letter ends a word; everything else is mapped character by character.
-/

namespace ElementCatalog.Text

/-- The image of a character under a table of mapping runs; characters outside map to themselves. -/
def mapByRuns (table : List (Nat × Nat × Nat × Int)) (c : Char) : Char :=
  match table.find? fun (first, last, stride, _) =>
      first ≤ c.toNat && c.toNat ≤ last && (c.toNat - first) % stride == 0 with
  | some (_, _, _, distance) => Char.ofNat (Int.toNat (c.toNat + distance))
  | none => c

/-- The lowercase of a character. Dotted capital I keeps its dot as a mark of its own. -/
def lowerChar (c : Char) : List Char :=
  if c.toNat < 128 then [c.toLower]
  else if c.toNat == 0x130 then ['i', Char.ofNat 0x307]
  else [mapByRuns Tables.toLower c]

/-- The uppercase of a character. -/
def upperChar (c : Char) : List Char :=
  if c.toNat < 128 then [c.toUpper]
  else
    match Tables.toUpperSpecial.lookup c.toNat with
    | some image => image.map Char.ofNat
    | none => [mapByRuns Tables.toUpper c]

/-- A letter follows, possibly after characters that case mapping looks through. -/
def letterFollows (s : List Char) : Bool :=
  match s.dropWhile isCaseIgnorable with
  | c :: _ => isCased c
  | [] => false

/-- Lowercase a text whose characters before it, last first, are `before`. -/
def lowerAfter (before : List Char) : List Char → List Char
  | [] => []
  | c :: rest =>
    let image :=
      if c.toNat == 0x3A3 then
        if letterFollows before && !letterFollows rest then [Char.ofNat 0x3C2]
        else [Char.ofNat 0x3C3]
      else lowerChar c
    image ++ lowerAfter (c :: before) rest

/-- The lowercase of a text. -/
def lower (s : List Char) : List Char :=
  lowerAfter [] s

/-- The uppercase of a text. -/
def upper (s : List Char) : List Char :=
  s.flatMap upperChar

/-- Lowercase the first character and leave the rest untouched. -/
def lowerFirst (s : String) : String :=
  match s.toList with
  | [] => ""
  | c :: rest => String.ofList (lowerChar c ++ rest)

end ElementCatalog.Text
