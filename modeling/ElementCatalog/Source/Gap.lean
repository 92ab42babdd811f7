import ElementCatalog.Source.Token

/-!
# Gaps — what stands between two tokens

Blanks, line ends and comments separate tokens. A block comment documents the token after it unless
it still belongs to the token before it: that is the case when no line ends in between and the token
before is one that takes comments. Of several documentation comments the last one counts. Besides
the usual comments a gap may hold the guards that once hid scripts from readers of markup; the token
after such a guard counts as starting there.
-/

namespace ElementCatalog.Source

/-- A block comment on the same line right after this token belongs to it. -/
def Token.takesComments : Token → Bool
  | .word name => !reservedWords.contains name
  | .privateName _ => true
  | .string _ => true
  | .number _ => true
  | .bigint => true
  | .regex => true
  | .sign text => text == ";" || text == "\x7b" || text == "\x7d" || text == "$\x7b"
  | _ => false

/-- What has been passed over of a gap. -/
structure Gap where
  /-- The number of characters. -/
  length : Nat := 0
  /-- A line ended in the gap. -/
  lineBreak : Bool := false
  /-- The text of the last documentation comment for the token after the gap. -/
  doc : Option String := none
  /-- The number of characters before the first guard. -/
  guardAt : Option Nat := none
deriving Repr

/-- What is being passed over in a gap. A block comment keeps its text, last character first, and
    whether it belongs to the token before. -/
inductive GapPart where
  | blanks
  | lineComment
  | blockComment (text : List Char) (trailing : Bool)
deriving Repr

namespace Gap

/-- The gap with some more characters. -/
def passing (gap : Gap) (n : Nat) : Gap :=
  { gap with length := gap.length + n }

/-- The gap with a line end. -/
def breaking (gap : Gap) : Gap :=
  { gap with lineBreak := true }

/-- The gap with a guard at its end. -/
def guarded (gap : Gap) : Gap :=
  { gap with guardAt := gap.guardAt.or (some gap.length) }

/-- The gap with a block comment at its end. -/
def commented (gap : Gap) (comment : List Char) (trailing : Bool) : Gap :=
  match comment with
  | '*' :: _ => if trailing then gap else { gap with doc := some (String.ofList comment) }
  | _ => gap

/-- Pass over the rest of a gap. A block comment that is not closed reaches to the end and documents
    nothing. A closing guard stands at the start of a line. -/
def pass (takesComments : Bool) : (part : GapPart) → (text : List Char) → Gap → Gap
  | _, [], gap => gap
  | .blanks, '/' :: '/' :: rest, gap => pass takesComments .lineComment rest (gap.passing 2)
  | .blanks, '/' :: '*' :: rest, gap =>
    pass takesComments (.blockComment [] (takesComments && !gap.lineBreak)) rest (gap.passing 2)
  | .blanks, '<' :: '!' :: '-' :: '-' :: rest, gap =>
    pass takesComments .lineComment rest (gap.guarded.passing 4)
  | .blanks, '-' :: '-' :: '>' :: rest, gap =>
    if gap.lineBreak then pass takesComments .lineComment rest (gap.guarded.passing 3) else gap
  | .blanks, c :: rest, gap =>
    if isLineEnd c then pass takesComments .blanks rest (gap.breaking.passing 1)
    else if isSpace c then pass takesComments .blanks rest (gap.passing 1)
    else gap
  | .lineComment, c :: rest, gap =>
    if isLineEnd c then pass takesComments .blanks rest (gap.breaking.passing 1)
    else pass takesComments .lineComment rest (gap.passing 1)
  | .blockComment text trailing, '*' :: '/' :: rest, gap =>
    pass takesComments .blanks rest ((gap.commented text.reverse trailing).passing 2)
  | .blockComment text trailing, c :: rest, gap =>
    pass takesComments (.blockComment (c :: text) trailing) rest
      ((if isLineEnd c then gap.breaking else gap).passing 1)

end Gap

end ElementCatalog.Source
