import ElementCatalog.Json.Reader
import ElementCatalog.Text.Pieces

/-!
# Documentation blocks — what a comment says about the code after it

A block is read line by line: free text first, then tags, each with the lines that continue it.
Among the tags are the default value, the external name and the events of a component.
-/

namespace ElementCatalog

/-- An event named in a documentation block. -/
structure FiredEvent where
  name : String
  description : Option String
deriving DecidableEq, Repr

/-- What a documentation block says. -/
structure DocBlock where
  description : Option String := none
  defaultValue : Option Json := none
  deprecated : Bool := false
  externalName : Option String := none
  eventName : Option String := none
  fires : List FiredEvent := []
deriving Repr, Inhabited

namespace DocBlock

open Text (trim isBlank)

/-- A tag with its text. -/
structure Tag where
  name : List Char
  text : List Char
deriving DecidableEq, Repr

/-- A line without the blanks and the single star around its text. -/
def cleanLine (line : List Char) : List Char :=
  match trim line with
  | '*' :: rest => trim rest
  | text => text

/-- The tag that a clean line starts: an at sign, an ASCII letter, and word characters or hyphens.
    The rest of the line is its text. -/
def tag? (line : List Char) : Option Tag :=
  match line with
  | '@' :: first :: rest =>
    if Text.isAsciiLetter first then
      let inName (c : Char) : Bool := Text.isWordCharacter c || c == '-'
      some ⟨first :: rest.takeWhile inName, trim (rest.dropWhile inName)⟩
    else none
  | _ => none

/-- Free text and tags of a block; the last tag is the first of the list while lines are read. -/
structure Lines where
  freeText : List (List Char) := []
  tags : List Tag := []
deriving DecidableEq, Repr

/-- Continue the text of a tag with a line. -/
def Tag.continueWith (tag : Tag) (line : List Char) : Tag :=
  if line.isEmpty then tag
  else { tag with text := tag.text ++ (if tag.text.isEmpty then [] else [' ']) ++ line }

/-- Read one more clean line. -/
def Lines.add (lines : Lines) (line : List Char) : Lines :=
  match tag? line with
  | some tag => { lines with tags := tag :: lines.tags }
  | none =>
    match lines.tags with
    | [] => { lines with freeText := lines.freeText ++ [line] }
    | tag :: others => { lines with tags := tag.continueWith line :: others }

/-- The text of a list of characters, unless it is empty. -/
def nonEmpty? (text : List Char) : Option String :=
  if text.isEmpty then none else some (String.ofList text)

/-- The first word of a text. -/
def firstWord? (text : List Char) : Option String :=
  (Text.words text).head?.map String.ofList

/-- The text between two single quotes. -/
def unquoted? (text : List Char) : Option (List Char) :=
  match text with
  | first :: rest =>
    if first.toNat == 0x27 && rest.getLast?.map Char.toNat == some 0x27 then some rest.dropLast
    else none
  | [] => none

/-- The value that a default tag gives: a JSON value if the text is one, else the text itself,
    without single quotes around it. -/
def defaultValue? (text : List Char) : Option Json :=
  let text := trim text
  if text.isEmpty then none
  else
    match Json.parse text with
    | .ok value => some value
    | .error _ => some (.string (String.ofList ((unquoted? text).getD text)))

/-- What follows a type in braces at the start of a text, without the blanks after it. -/
def afterType? (text : List Char) : Option (List Char) :=
  match text with
  | '{' :: rest =>
    match rest.dropWhile (· != '}') with
    | '}' :: after => some (after.dropWhile isBlank)
    | _ => none
  | _ => none

/-- The event that a text names: its first word, with the rest as description after an optional
    hyphen. A type in braces before the name is passed over if a name follows it. -/
def firedEvent? (text : List Char) : Option FiredEvent :=
  let text := trim text
  let named :=
    match afterType? text with
    | some (c :: rest) => c :: rest
    | _ => text
  let name := named.takeWhile (!isBlank ·)
  if name.isEmpty then none
  else
    let rest := (named.dropWhile (!isBlank ·)).dropWhile isBlank
    let description :=
      match rest with
      | '-' :: after => after
      | after => after
    some ⟨String.ofList name, nonEmpty? (trim description)⟩

/-- Take in what a tag says. -/
def addTag (doc : DocBlock) (tag : Tag) : DocBlock :=
  let name := String.ofList tag.name
  if name = "default" ∨ name = "defaultValue" then
    { doc with defaultValue := defaultValue? tag.text }
  else if name = "deprecated" then { doc with deprecated := true }
  else if name = "attribute" ∨ name = "attr" then { doc with externalName := firstWord? tag.text }
  else if name = "event" ∨ name = "eventName" then { doc with eventName := firstWord? tag.text }
  else if name = "fires" ∨ name = "fire" ∨ name = "emits" then
    { doc with fires := doc.fires ++ (firedEvent? tag.text).toList }
  else if name = "description" ∧ doc.description = none then
    { doc with description := nonEmpty? tag.text }
  else doc

/-- Read the clean lines of a block. -/
def ofLines (lines : List (List Char)) : DocBlock :=
  let read := lines.foldl Lines.add {}
  let start : DocBlock :=
    { description := nonEmpty? (trim (Text.joinWith ['\n'] read.freeText)) }
  read.tags.reverse.foldl addTag start

/-- Read the text of a comment, without its delimiters. -/
def parse (raw : List Char) : DocBlock :=
  ofLines ((Text.lines raw).map cleanLine)

end DocBlock

end ElementCatalog
