import ElementCatalog.Doc.Block
import ElementCatalog.Text.Trimming

/-!
# Sections of a block — free text, tags, and the ways to spell a line

The clean lines of a block are cut at those that start a tag.  The lines before the first cut are
free text; every other line continues the tag before it.  How a line is indented, and whether a star
stands before its text, says nothing.  What a tag says is studied in a block where no other tag has
one of its names.
-/

namespace ElementCatalog.DocBlock

open Text (AllBlank)

/-! ## Sections -/

/-- A character that may continue the name of a tag. -/
def isNameCharacter (c : Char) : Bool :=
  Text.isWordCharacter c || c == '-'

/-- A line has the form `@name rest`.  The name is an ASCII letter with all the name characters after
    it, and the blanks around the rest do not count. -/
def StartsTag (line : List Char) (tag : Tag) : Prop :=
  ∃ first more rest, line = '@' :: first :: (more ++ rest) ∧ Text.isAsciiLetter first = true ∧
    (∀ c ∈ more, isNameCharacter c = true) ∧ (∀ c ∈ rest.head?, isNameCharacter c = false) ∧
    tag = ⟨first :: more, Text.trim rest⟩

/-- The lines before the first one that starts a tag. -/
def freeLines (lines : List (List Char)) : List (List Char) :=
  lines.takeWhile fun line => (tag? line).isNone

/-- The texts that are not empty, joined by single spaces. -/
def joinTexts (texts : List (List Char)) : List Char :=
  Text.joinWith [' '] (texts.filter fun text => !text.isEmpty)

/-- The tags in the order in which they start.  The text of a tag is what stands after its name on
    its own line, and then the lines up to the next tag. -/
def tagsOf : List (List Char) → List Tag
  | [] => []
  | line :: rest =>
    match tag? line with
    | some tag => ⟨tag.name, joinTexts (tag.text :: freeLines rest)⟩ :: tagsOf rest
    | none => tagsOf rest

/-- A tag has one of the given names. -/
def Tag.isNamed (names : List String) (tag : Tag) : Bool :=
  names.contains (String.ofList tag.name)

/-- The names of the tags that give a default value. -/
def defaultNames : List String := ["default", "defaultValue"]

/-- The names of the tags that give the external name of a property. -/
def externalNames : List String := ["attribute", "attr"]

/-- The names of the tags that give the name of an event. -/
def eventNames : List String := ["event", "eventName"]

/-- The names of the tags that announce an event. -/
def firesNames : List String := ["fires", "fire", "emits"]

/-- A tag can have a name. -/
def IsTagName (name : List Char) : Prop :=
  ∃ first more, name = first :: more ∧ Text.isAsciiLetter first = true ∧
    ∀ c ∈ more, isNameCharacter c = true

/-! ## Spellings -/

/-- What may stand before the text of a line: blanks, with at most one star among them. -/
def IsMargin (margin : List Char) : Prop :=
  AllBlank margin ∨
    ∃ before after, AllBlank before ∧ AllBlank after ∧ margin = before ++ '*' :: after

/-- A line spells a text: it has a margin before it and blanks after it. -/
def Spells (line text : List Char) : Prop :=
  ∃ margin blanks, IsMargin margin ∧ AllBlank blanks ∧ line = margin ++ text ++ blanks

/-- Two lines are the same, or they differ only in how they are indented and in whether a star stands
    before their text, which does not start with a star itself. -/
def Respelled (line line' : List Char) : Prop :=
  line = line' ∨
    ∃ text, (Text.trim text).head? ≠ some '*' ∧ Spells line text ∧ Spells line' text

/-! ## One tag among other lines -/

/-- A line starts no tag of the given names. -/
def Silent (names : List String) (line : List Char) : Prop :=
  ∀ tag, tag? (cleanLine line) = some tag → tag.isNamed names = false

/-- What stands around the text of a tag that is the only one of its names: lines before and after,
    none of which continues the text, and on its own line a margin, the name and blanks before the
    text, and blanks after it. -/
structure Setting (names : List String) where
  before : List (List Char)
  after : List (List Char)
  margin : List Char
  name : String
  gap : List Char
  blanks : List Char
  silent_before : ∀ line ∈ before, Silent names line
  silent_after : ∀ line ∈ after, Silent names line
  notContinued : ∀ line ∈ freeLines (after.map cleanLine), line = []
  isMargin : IsMargin margin
  mem_names : name ∈ names
  allBlank_gap : AllBlank gap
  gap_ne_nil : gap ≠ []
  allBlank_blanks : AllBlank blanks
  noFeed : ∀ part ∈ margin :: gap :: blanks :: (before ++ after), '\n' ∉ part

/-- A line with a star before the tag, and no other line. -/
def Setting.starred {names : List String} {name : String} (h : name ∈ names) : Setting names where
  before := []
  after := []
  margin := ['*', ' ']
  name := name
  gap := [' ']
  blanks := []
  silent_before := List.forall_mem_nil _
  silent_after := List.forall_mem_nil _
  notContinued := List.forall_mem_nil _
  isMargin := Or.inr ⟨[], [' '], by decide, by decide, rfl⟩
  mem_names := h
  allBlank_gap := by decide
  gap_ne_nil := List.cons_ne_nil _ _
  allBlank_blanks := Text.allBlank_nil
  noFeed := by decide

/-- The comment that says a text in a setting. -/
def Setting.comment {names : List String} (setting : Setting names) (text : List Char) : List Char :=
  Text.joinWith ['\n'] (setting.before ++
    (setting.margin ++ ('@' :: setting.name.toList ++ (setting.gap ++ text)) ++ setting.blanks) ::
      setting.after)

end ElementCatalog.DocBlock
