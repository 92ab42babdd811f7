import ElementCatalog.Text.CharClass
import ElementCatalog.Text.Tables.Columns

/-!
# Display width — how many columns a text takes on a terminal

Most characters have a width of their own, and the width of a text is their sum. The exceptions are
ligatures: emoji sequences that show as one emoji, letters that are drawn as one, and the line break
of two characters. A text is measured from its end, so that every character knows what follows it.
-/

namespace ElementCatalog.Text

/-- A code point lies in a range. -/
def within (first last : Nat) (c : Char) : Bool :=
  first ≤ c.toNat && c.toNat ≤ last

/-- The width of a character on its own. Controls count as one column. -/
def charWidth (c : Char) : Nat :=
  if c.toNat ≤ 0xA0 || c.toNat == 0x2D7F then 1
  else if c.toNat == 0x17A4 then 2
  else if c.toNat == 0x17D8 then 3
  else if inRanges Tables.zeroColumns c then 0
  else if inRanges Tables.twoColumns c then 2
  else 1

/-! ## Emoji -/

/-- The letters of which two make a flag. -/
def isFlagLetter : Char → Bool :=
  within 0x1F1E6 0x1F1FF

/-- The skin tones. -/
def isSkinTone : Char → Bool :=
  within 0x1F3FB 0x1F3FF

/-- Emoji that show as emoji without being asked to. -/
def isEmoji (c : Char) : Bool :=
  inRanges Tables.emoji c

/-- Characters that a selector turns into emoji: digits and signs of keycaps too. -/
def hasEmojiStyle (c : Char) : Bool :=
  inRanges Tables.emojiStyle c

/-! ## What follows -/

/-- What a selector asks of the character before it. -/
inductive Selector where
  | none
  | text
  | emoji
  /-- The wide form of a quotation mark. -/
  | wide
deriving DecidableEq, Repr

/-- What follows a character, as far as the width of the character depends on it. -/
inductive Following where
  | other
  | lineFeed
  | emoji
  /-- A joiner before an emoji. -/
  | joinedEmoji
  /-- The mark of a keycap, joined to an emoji. -/
  | joinedKeycap
  | skinTone
  | flagLetter
  | flagLetters
  /-- So many flag letters, joined to an emoji. -/
  | joinedFlag (letters : Nat)
  /-- The tags of a regional flag that is joined to an emoji: letters, then digits. -/
  | joinedTags (letters digits : Nat)
  /-- The last letter of a ligature, possibly after a joiner. -/
  | letter (c : Char) (joined : Bool)
deriving DecidableEq, Repr

/-- What follows a character: a selector, and what the selector stands before. -/
structure Surrounding where
  next : Following
  selector : Selector
deriving DecidableEq, Repr

/-! ## Letters -/

/-- Letters that a lam before them is drawn together with. -/
def isAlef (c : Char) : Bool :=
  [0x622, 0x623, 0x625, 0x627, 0x675].contains c.toNat || within 0x671 0x673 c ||
    within 0x773 0x774 c || within 0x870 0x882 c

/-- Letters that are drawn together with an alef after them. -/
def isLam (c : Char) : Bool :=
  [0x644, 0x76A, 0x8A6, 0x8C7].contains c.toNat || within 0x6B5 0x6B8 c

/-- Letters that a coeng sign before them puts below the line. -/
def isSubscriptLetter (c : Char) : Bool :=
  within 0x1780 0x17AF c &&
    [0x1783, 0x1788, 0x178D, 0x1794, 0x1799, 0x179A, 0x179E, 0x179F, 0x17A1, 0x17A3, 0x17A4,
      0x17A5, 0x17A6, 0x17A8, 0x17A9, 0x17AA, 0x17AD, 0x17AE].all (· != c.toNat)

/-- Consonants of which two are drawn as one. -/
def isPairedConsonant (c : Char) : Bool :=
  within 0x2D31 0x2D65 c || c.toNat == 0x2D6F

/-- Signs of a vowel that merge with a sign before them. -/
def isVowelSign (c : Char) : Bool :=
  within 0x16D67 0x16D68 c

/-- Marks between the letters of a ligature that leave it whole. -/
def isSeeThrough (c : Char) : Bool :=
  [0x34F, 0x17B4, 0x17B5, 0x180B, 0x180C, 0x180D, 0x180F].contains c.toNat ||
    within 0xFE00 0xFE0F c || within 0xE0100 0xE01EF c

/-- Marks between a lam and its alef that leave their ligature whole. -/
def isSeeThroughForAlef (c : Char) : Bool :=
  charWidth c == 0 && !inRanges Tables.opaqueZeroColumns c

/-- The width of a letter or mark before a letter that it is drawn together with, and what it is to
    the character before it. -/
def ligature? (c last : Char) (joined : Bool) : Option (Int × Following) :=
  let n := c.toNat
  if isAlef last then
    if isLam c then some (0, .other)
    else if isSeeThroughForAlef c then some (0, .letter last joined)
    else none
  else if isVowelSign last then
    if last.toNat == 0x16D68 then if n == 0x16D63 then some (0, .other) else none
    else if n == 0x16D63 || n == 0x16D69 then some (0, .other)
    else if n == 0x16D67 then some (0, .letter (Char.ofNat 0x16D68) false)
    else if n == 0x16D68 then some (1, .letter last joined)
    else none
  else if n == 0x200D then some (0, .letter last true)
  else if isSeeThrough c then some (0, .letter last joined)
  else if joined && last.toNat == 0x5DC && n == 0x5D0 then some (0, .other)
  else if joined && last.toNat == 0x10C03 && n == 0x10C32 then some (0, .other)
  else if joined && last.toNat == 0x1A10 && n == 0x1A17 then some (0, .letter c true)
  else if last.toNat == 0x1A17 && n == 0x1A15 then some (0, .other)
  else if isSubscriptLetter last && n == 0x17D2 then some (-1, .other)
  else if within 0xA4FC 0xA4FD last && within 0xA4F8 0xA4FB c then some (0, .other)
  else if isPairedConsonant last && n == 0x2D7F then some (1, .letter c joined)
  else if joined && isPairedConsonant last && isPairedConsonant c then some (0, .other)
  else if last.toNat == 0x2D7F && isPairedConsonant c then some (-1, .other)
  else none

/-- A letter that may be the last one of a ligature. -/
def endsLigature (c : Char) : Bool :=
  isAlef c || isSubscriptLetter c || isPairedConsonant c || isVowelSign c ||
    within 0xA4FC 0xA4FD c || [0x5DC, 0x1A10, 0x10C03].contains c.toNat

/-! ## Texts -/

/-- A character on its own. -/
def alone (c : Char) : Int × Following :=
  ( charWidth c,
    if c == '\n' then .lineFeed
    else if isSkinTone c then .skinTone
    else if isFlagLetter c then .flagLetter
    else if isEmoji c then .emoji
    else if endsLigature c then .letter c false
    else .other )

/-- The width that a character adds before what follows it, and what it is to the character before
    it, where no selector stands between. -/
def placed (c : Char) (next : Following) : Int × Following :=
  let joiner := c.toNat == 0x200D
  match next with
  | .other => alone c
  | .lineFeed => if c == '\r' then (0, .other) else alone c
  | .emoji | .flagLetters => if joiner then (0, .joinedEmoji) else alone c
  | .joinedEmoji =>
    if c.toNat == 0x20E3 then (0, .joinedKeycap)
    else if isFlagLetter c then (1, .joinedFlag 1)
    else if isSkinTone c then (0, .skinTone)
    else if c.toNat == 0xE007F then (0, .joinedTags 0 0)
    else if isEmoji c then (0, .emoji)
    else alone c
  | .joinedKeycap => alone c
  | .skinTone =>
    if joiner then (0, .joinedEmoji)
    else if inRanges Tables.emojiModifierBases c then (0, .emoji)
    else alone c
  | .flagLetter => if isFlagLetter c then (1, .flagLetters) else alone c
  | .joinedFlag letters =>
    -- An even number of letters shows as flags, the first of which merges with the emoji.
    if isFlagLetter c then (if letters % 2 = 1 then -1 else 3, .joinedFlag (letters + 1))
    else if joiner && letters % 2 = 0 then (0, .joinedEmoji)
    else alone c
  | .joinedTags letters digits =>
    if within 0xE0061 0xE007A c && digits = 0 && letters < 6 then (0, .joinedTags (letters + 1) 0)
    else if within 0xE0030 0xE0039 c && letters ≤ 3 && digits < 3 then
      (0, .joinedTags letters (digits + 1))
    else if c.toNat == 0x1F3F4 && (digits = 3 || (digits = 0 && 3 ≤ letters)) then (0, .emoji)
    else alone c
  | .letter last joined => (ligature? c last joined).getD (alone c)

/-- What a selector leaves visible of the characters after it. -/
def pastSelector : Following → Following
  | .letter c joined => .letter c joined
  | _ => .other

/-- The width that a character adds, and what it is to the character before it. -/
def step (c : Char) (after : Surrounding) : Int × Surrounding :=
  let plain (next : Following) : Int × Surrounding :=
    if c.toNat == 0xFE0E then (0, ⟨pastSelector next, .text⟩)
    else if c.toNat == 0xFE01 then (0, ⟨pastSelector next, .wide⟩)
    else if c.toNat == 0xFE0F then
      match next with
      | .joinedEmoji => (0, ⟨.joinedEmoji, .emoji⟩)
      | .joinedKeycap => (0, ⟨.joinedKeycap, .emoji⟩)
      | _ => (0, ⟨pastSelector next, .emoji⟩)
    else
      let (columns, before) := placed c next
      (columns, ⟨before, .none⟩)
  match after.selector with
  | .none => plain after.next
  | .emoji =>
    if hasEmojiStyle c then
      let joined := after.next == .joinedEmoji || after.next == .joinedKeycap
      (if joined then 0 else 2, ⟨.emoji, .none⟩)
    else plain (pastSelector after.next)
  | .text =>
    if inRanges Tables.textStyle c then (1, ⟨.other, .none⟩) else plain (pastSelector after.next)
  | .wide =>
    if [0x2018, 0x2019, 0x201C, 0x201D].contains c.toNat then (2, ⟨.other, .none⟩)
    else plain (pastSelector after.next)

/-- The width of a text. -/
def width (text : String) : Nat :=
  (text.toList.foldr
    (fun c (total, after) =>
      let (columns, before) := step c after
      (total + columns, before))
    ((0 : Int), (⟨.other, .none⟩ : Surrounding))).1.toNat

/-- Blanks after a text up to a width. -/
def padEnd (columns : Nat) (text : String) : String :=
  text ++ String.ofList (List.replicate (columns - width text) ' ')

end ElementCatalog.Text
