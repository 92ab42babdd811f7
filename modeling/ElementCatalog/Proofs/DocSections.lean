import ElementCatalog.Doc.Sections
import ElementCatalog.Text.Splitting

/-!
# Sections of documentation — what a block says, tag by tag

Toward: a documentation block says what its free text and its tags say, whatever the lines look like
besides.  The free text is the description; of the tags with one meaning the last one counts, except
that events add up and that the first description with a text is taken.  The route:

* a clean line is the trimmed text that the line spells (`cleanLine_of_spells`), and lines that are
  joined are read one by one (`parse_joinWith`);
* reading the lines one after another collects the free lines and the tags (`foldl_add`), by
  induction with the last tag in hand;
* each field of a block is a fold over the tags of its own (`foldl_addTag_last` for those where the
  last tag decides).
-/

namespace ElementCatalog

open Text (AllBlank trim isBlank joinWith)

namespace Text

/-! ## Joined texts -/

/-- Joining is putting a separator between neighbours. -/
theorem joinWith_eq_intercalate (separator : List Char) (pieces : List (List Char)) :
    joinWith separator pieces = separator.intercalate pieces := by
  induction pieces with
  | nil => rfl
  | cons piece rest ih =>
      cases rest with
      | nil => simp [joinWith]
      | cons next more => rw [joinWith, ih, List.intercalate_cons_cons]; exact List.cons_ne_nil _ _

/-- An empty text at the end adds one more separator. -/
theorem joinWith_concat_nil (separator : List Char) {pieces : List (List Char)}
    (hne : pieces ≠ []) :
    joinWith separator (pieces ++ [[]]) = joinWith separator pieces ++ separator := by
  induction pieces with
  | nil => exact absurd rfl hne
  | cons piece rest ih =>
      cases rest with
      | nil => simp [joinWith]
      | cons next more =>
          have hmore := ih (List.cons_ne_nil next more)
          show piece ++ separator ++ joinWith separator (next :: more ++ [[]]) =
            piece ++ separator ++ joinWith separator (next :: more) ++ separator
          rw [hmore, List.append_assoc _ _ separator]

end Text

namespace DocBlock

/-! ## Lines -/

/-- The clean line is the trimmed text that a line spells, unless the text brings a star of its
    own. -/
theorem cleanLine_of_spells {line text : List Char} (h : Spells line text)
    (hstar : (trim text).head? ≠ some '*') : cleanLine line = trim text := by
  obtain ⟨margin, blanks, hmargin, hblanks, rfl⟩ := h
  rcases hmargin with hmargin | ⟨before, after, hbefore, hafter, rfl⟩
  · rw [cleanLine, Text.trim_around hmargin hblanks]
    split
    · next rest htrim =>
        rw [htrim] at hstar
        exact absurd rfl hstar
    · rfl
  · -- The star of the margin is the first character that is no blank.
    have hline : before ++ '*' :: after ++ text ++ blanks =
        before ++ '*' :: (after ++ text ++ blanks) := by
      simp only [List.append_assoc, List.cons_append]
    obtain ⟨rest, htrim, hrest⟩ := Text.trim_cons (c := '*') (by decide) (after ++ text ++ blanks)
    rw [cleanLine, hline, Text.trim_append_left hbefore, htrim]
    exact hrest.trans (Text.trim_around hafter hblanks text)

/-- Lines that differ in their margins alone have the same clean line. -/
theorem Respelled.cleanLine_eq {line line' : List Char} (h : Respelled line line') :
    cleanLine line = cleanLine line' := by
  rcases h with rfl | ⟨text, hstar, hline, hline'⟩
  · rfl
  · rw [cleanLine_of_spells hline hstar, cleanLine_of_spells hline' hstar]

/-- Lists of such lines have the same clean lines. -/
theorem map_cleanLine_of_respelled {lines lines' : List (List Char)}
    (h : List.Forall₂ Respelled lines lines') : lines.map cleanLine = lines'.map cleanLine := by
  induction h with
  | nil => rfl
  | cons hline _ ih => rw [List.map_cons, List.map_cons, hline.cleanLine_eq, ih]

/-- The carriage return at the end of a line is one of its blanks. -/
theorem cleanLine_dropReturn (line : List Char) :
    cleanLine (Text.dropReturn line) = cleanLine line := by
  rw [Text.dropReturn]
  split
  · next hlast =>
      have hsplit : line.dropLast ++ ['\r'] = line := List.dropLast_append_getLast? _ hlast
      have hblank : AllBlank ['\r'] := fun c hc => List.mem_singleton.mp hc ▸ (by decide)
      rw [cleanLine, cleanLine, ← Text.trim_append_right hblank line.dropLast, hsplit]
  · rfl

/-- A tag is read off exactly the lines that start it. -/
theorem tag?_eq_some_iff {line : List Char} {tag : Tag} :
    tag? line = some tag ↔ StartsTag line tag := by
  constructor
  · intro h
    unfold tag? at h
    split at h
    · next first rest =>
        split at h
        · next hfirst =>
            cases h
            refine ⟨first, rest.takeWhile isNameCharacter, rest.dropWhile isNameCharacter, ?_, hfirst,
              fun c hc => List.mem_takeWhile_imp hc, fun c hc => ?_, rfl⟩
            · rw [List.takeWhile_append_dropWhile]
            · have hnot := List.head?_dropWhile_not isNameCharacter rest
              rw [Option.mem_def.mp hc] at hnot
              exact hnot
        · cases h
    · cases h
  · rintro ⟨first, more, rest, rfl, hfirst, hmore, hrest, rfl⟩
    have hends : rest.takeWhile isNameCharacter = [] ∧ rest.dropWhile isNameCharacter = rest := by
      cases rest with
      | nil => exact ⟨rfl, rfl⟩
      | cons c rest =>
          have hc : ¬isNameCharacter c = true := ne_true_of_eq_false (hrest c rfl)
          exact ⟨List.takeWhile_cons_of_neg hc, List.dropWhile_cons_of_neg hc⟩
    have hname : (more ++ rest).takeWhile isNameCharacter = more := by
      rw [List.takeWhile_append_of_pos hmore, hends.1, List.append_nil]
    have htext : (more ++ rest).dropWhile isNameCharacter = rest := by
      rw [List.dropWhile_append_of_pos hmore, hends.2]
    show (if Text.isAsciiLetter first = true then
      some (⟨first :: (more ++ rest).takeWhile isNameCharacter,
        trim ((more ++ rest).dropWhile isNameCharacter)⟩ : Tag) else none) = _
    rw [if_pos hfirst, hname, htext]

/-! ## Lines that start a tag -/

/-- The code points of the blanks. -/
def blankCodes : List Nat :=
  [9, 10, 11, 12, 13, 0x20, 0x85, 0xA0, 0x1680, 0x2000, 0x2001, 0x2002, 0x2003, 0x2004, 0x2005,
    0x2006, 0x2007, 0x2008, 0x2009, 0x200A, 0x2028, 0x2029, 0x202F, 0x205F, 0x3000]

/-- There are no other blanks. -/
theorem toNat_mem_blankCodes {c : Char} (h : isBlank c = true) : c.toNat ∈ blankCodes := by
  simp only [isBlank, Bool.or_eq_true, Bool.and_eq_true, decide_eq_true_eq, beq_iff_eq] at h
  simp only [blankCodes, List.mem_cons, List.not_mem_nil, or_false]
  omega

/-- A blank ends the name of a tag. -/
theorem isNameCharacter_of_isBlank {c : Char} (h : isBlank c = true) :
    isNameCharacter c = false := by
  have hall : ∀ n ∈ blankCodes, isNameCharacter (Char.ofNat n) = false := by decide +kernel
  rw [← Char.ofNat_toNat c]
  exact hall _ (toNat_mem_blankCodes h)

/-- A name has no blanks. -/
theorem isBlank_of_isNameCharacter {c : Char} (h : isNameCharacter c = true) : isBlank c = false :=
  Bool.eq_false_iff.mpr fun hblank =>
    absurd h (ne_true_of_eq_false (isNameCharacter_of_isBlank hblank))

/-- The first letter of a name is one of its characters. -/
theorem isNameCharacter_of_isAsciiLetter {c : Char} (h : Text.isAsciiLetter c = true) :
    isNameCharacter c = true := by
  have hsmall : c.toNat < 128 := by
    simp only [Text.isAsciiLetter, Bool.or_eq_true, Bool.and_eq_true, decide_eq_true_eq] at h
    rcases h with h | h
    · exact Nat.lt_of_le_of_lt (show c.toNat ≤ 'z'.toNat from h.2) (by decide)
    · exact Nat.lt_of_le_of_lt (show c.toNat ≤ 'Z'.toNat from h.2) (by decide)
  rw [isNameCharacter, Text.isWordCharacter, if_pos hsmall, h]
  rfl

/-- A line of a tag name, blanks and a text starts this tag with the trimmed text. -/
theorem tag?_trim_tagLine {first : Char} {more gap : List Char}
    (hfirst : Text.isAsciiLetter first = true) (hmore : ∀ c ∈ more, isNameCharacter c = true)
    (hgap : AllBlank gap) (hne : gap ≠ []) (text : List Char) :
    tag? (trim ('@' :: first :: more ++ (gap ++ text))) = some ⟨first :: more, trim text⟩ := by
  have hname : ∀ c ∈ '@' :: first :: more, isBlank c = false := by
    refine List.forall_mem_cons.mpr ⟨by decide, List.forall_mem_cons.mpr ⟨?_, fun c hc => ?_⟩⟩
    · exact isBlank_of_isNameCharacter (isNameCharacter_of_isAsciiLetter hfirst)
    · exact isBlank_of_isNameCharacter (hmore c hc)
  obtain ⟨b, hb, hrest⟩ := Text.exists_trimEnd (gap ++ text)
  rw [Text.trim_append_of_noBlank hname (List.cons_ne_nil _ _), tag?_eq_some_iff]
  refine ⟨first, more, Text.trimEnd (gap ++ text), rfl, hfirst, hmore, fun c hc => ?_, ?_⟩
  · -- If anything is left behind the name, then the first of the blanks.
    refine isNameCharacter_of_isBlank (hgap c ?_)
    have hhead : (gap ++ text).head? = some c := by
      rw [hrest, List.head?_append, Option.mem_def.mp hc]
      rfl
    rw [List.head?_append_of_ne_nil _ hne] at hhead
    exact List.mem_of_mem_head? hhead
  · rw [← Text.trim_append_right hb (Text.trimEnd (gap ++ text)), ← hrest,
      Text.trim_append_left hgap]

/-! ## Reading lines -/

/-- A single text is joined to itself. -/
theorem joinTexts_singleton (text : List Char) : joinTexts [text] = text := by
  cases text <;> rfl

/-- A tag that is continued by a line has the text of the line behind its own. -/
theorem joinTexts_continueWith (tag : Tag) (line : List Char) (texts : List (List Char)) :
    joinTexts ((tag.continueWith line).text :: texts) = joinTexts (tag.text :: line :: texts) := by
  obtain ⟨name, text⟩ := tag
  cases line with
  | nil => rfl
  | cons c line =>
      cases text with
      | nil => rfl
      | cons d text =>
          -- Both texts are kept, and the space between them is where it was.
          show joinWith [' '] ((d :: text ++ [' '] ++ c :: line) :: _) =
            joinWith [' '] ((d :: text) :: (c :: line) :: _)
          cases texts.filter fun text => !text.isEmpty with
          | nil => rfl
          | cons next more => simp only [joinWith, List.append_assoc]

/-- Reading on with a tag in hand completes its text and collects the tags after it. -/
theorem foldl_add_tagged (free : List (List Char)) (others : List Tag)
    (lines : List (List Char)) : ∀ tag : Tag,
      lines.foldl Lines.add ⟨free, tag :: others⟩ =
        ⟨free, (tagsOf lines).reverse ++
          ⟨tag.name, joinTexts (tag.text :: freeLines lines)⟩ :: others⟩ := by
  induction lines generalizing others with
  | nil =>
      intro tag
      rw [freeLines, List.takeWhile_nil, joinTexts_singleton]
      rfl
  | cons line rest ih =>
      intro tag
      cases hline : tag? line with
      | some next =>
          have hfree : freeLines (line :: rest) = [] := by simp [freeLines, hline]
          have hstep : Lines.add ⟨free, tag :: others⟩ line = ⟨free, next :: tag :: others⟩ := by
            simp [Lines.add, hline]
          rw [List.foldl_cons, hstep, ih, hfree, joinTexts_singleton, tagsOf, hline,
            List.reverse_cons, List.append_assoc]
          rfl
      | none =>
          have hfree : freeLines (line :: rest) = line :: freeLines rest := by
            simp [freeLines, hline]
          have hstep : Lines.add ⟨free, tag :: others⟩ line =
              ⟨free, tag.continueWith line :: others⟩ := by
            simp [Lines.add, hline]
          have hname : (tag.continueWith line).name = tag.name := by
            rw [Tag.continueWith]
            split <;> rfl
          rw [List.foldl_cons, hstep, ih, joinTexts_continueWith, hname, hfree, tagsOf, hline]

/-- Reading the lines of a block collects its free lines and its tags. -/
theorem foldl_add (free lines : List (List Char)) :
    lines.foldl Lines.add ⟨free, []⟩ = ⟨free ++ freeLines lines, (tagsOf lines).reverse⟩ := by
  induction lines generalizing free with
  | nil =>
      rw [freeLines, List.takeWhile_nil, List.append_nil]
      rfl
  | cons line rest ih =>
      cases hline : tag? line with
      | some tag =>
          have hfree : freeLines (line :: rest) = [] := by simp [freeLines, hline]
          have hstep : Lines.add ⟨free, []⟩ line = ⟨free, [tag]⟩ := by simp [Lines.add, hline]
          rw [List.foldl_cons, hstep, foldl_add_tagged, hfree, List.append_nil, tagsOf, hline,
            List.reverse_cons]
      | none =>
          have hfree : freeLines (line :: rest) = line :: freeLines rest := by
            simp [freeLines, hline]
          have hstep : Lines.add ⟨free, []⟩ line = ⟨free ++ [line], []⟩ := by
            simp [Lines.add, hline]
          rw [List.foldl_cons, hstep, ih, hfree, tagsOf, hline, List.append_assoc]
          rfl

/-- The free lines end where a tag starts. -/
theorem freeLines_append_tag {line : List Char} {tag : Tag} (h : tag? line = some tag)
    (lines rest : List (List Char)) : freeLines (lines ++ line :: rest) = freeLines lines := by
  have hline : freeLines (line :: rest) = [] := by simp [freeLines, h]
  rw [freeLines, List.takeWhile_append]
  split
  · next hlength =>
      have hall : freeLines lines = lines := (List.takeWhile_prefix _).eq_of_length hlength
      rw [hall]
      show lines ++ freeLines (line :: rest) = lines
      rw [hline, List.append_nil]
  · rfl

/-- The tags before a line that starts a tag are complete. -/
theorem tagsOf_append_tag {line : List Char} {tag : Tag} (h : tag? line = some tag)
    (lines rest : List (List Char)) :
    tagsOf (lines ++ line :: rest) = tagsOf lines ++ tagsOf (line :: rest) := by
  induction lines with
  | nil => rfl
  | cons first more ih =>
      rw [List.cons_append, tagsOf, tagsOf, freeLines_append_tag h, ih]
      split <;> rfl

/-- A tag starts on a line of its own. -/
theorem exists_tag?_of_mem {lines : List (List Char)} {tag : Tag} (h : tag ∈ tagsOf lines) :
    ∃ line ∈ lines, ∃ start, tag? line = some start ∧ start.name = tag.name := by
  induction lines with
  | nil => cases h
  | cons line rest ih =>
      have hrest : tag ∈ tagsOf rest →
          ∃ other ∈ line :: rest, ∃ start, tag? other = some start ∧ start.name = tag.name := by
        intro hmem
        obtain ⟨other, hother, hstart⟩ := ih hmem
        exact ⟨other, List.mem_cons_of_mem line hother, hstart⟩
      cases hline : tag? line with
      | none =>
          rw [tagsOf, hline] at h
          exact hrest h
      | some start =>
          rw [tagsOf, hline] at h
          rcases List.mem_cons.mp h with rfl | h
          · exact ⟨line, List.mem_cons_self, start, hline, rfl⟩
          · exact hrest h

/-- Empty lines do not change a text. -/
theorem joinTexts_of_empty {texts : List (List Char)} (h : ∀ other ∈ texts, other = [])
    (text : List Char) : joinTexts (text :: texts) = text := by
  have hnone : texts.filter (fun text => !text.isEmpty) = [] :=
    List.filter_eq_nil_iff.mpr fun other hother => by simp [h other hother]
  have hsame : joinTexts (text :: texts) = joinTexts [text] := by
    simp only [joinTexts, List.filter_cons, hnone, List.filter_nil]
  rw [hsame, joinTexts_singleton]

/-- A block is what its tags add to its free text. -/
theorem ofLines_eq (lines : List (List Char)) :
    ofLines lines = (tagsOf lines).foldl addTag
      { description := nonEmpty? (trim (joinWith ['\n'] (freeLines lines))) } := by
  have hread : lines.foldl Lines.add {} = ⟨freeLines lines, (tagsOf lines).reverse⟩ :=
    foldl_add [] lines
  rw [ofLines, hread]
  dsimp only
  rw [List.reverse_reverse]

/-- An empty line at the end adds nothing. -/
theorem ofLines_concat_nil (lines : List (List Char)) : ofLines (lines ++ [[]]) = ofLines lines := by
  have hblank : AllBlank ['\n'] := fun c hc => List.mem_singleton.mp hc ▸ (by decide)
  have htrim (free : List (List Char)) :
      trim (joinWith ['\n'] (free ++ [[]])) = trim (joinWith ['\n'] free) := by
    cases free with
    | nil => rfl
    | cons line rest =>
        rw [Text.joinWith_concat_nil _ (List.cons_ne_nil line rest), Text.trim_append_right hblank]
  rw [ofLines, ofLines, List.foldl_append]
  obtain ⟨free, tags⟩ := lines.foldl Lines.add {}
  cases tags with
  | nil =>
      show List.foldl addTag
        { description := nonEmpty? (trim (joinWith ['\n'] (free ++ [[]]))) } [] = _
      rw [htrim]
      rfl
  | cons tag others => rfl

/-- The lines of a text are read as its pieces between line feeds, up to an empty piece at the
    end. -/
theorem parse_eq (raw : List Char) :
    parse raw = ofLines ((Text.splitWhere (· == '\n') raw).map cleanLine) := by
  have hne := Text.splitWhere_ne_nil (· == '\n') raw
  obtain ⟨front, last, hpieces⟩ := List.eq_nil_or_concat' _ |>.resolve_left hne
  have hfront : (front.map Text.dropReturn).map cleanLine = front.map cleanLine := by
    rw [List.map_map]
    exact List.map_congr_left fun line _ => cleanLine_dropReturn line
  rw [parse, Text.lines, hpieces, List.getLast?_concat]
  dsimp only
  rw [List.dropLast_concat, List.map_append, List.map_append, hfront]
  cases last with
  | nil =>
      show ofLines (front.map cleanLine ++ []) = ofLines (front.map cleanLine ++ [[]])
      rw [List.append_nil, ofLines_concat_nil]
  | cons c rest => rfl

/-- Lines that are joined are read one by one. -/
theorem parse_joinWith {lines : List (List Char)} (h : ∀ line ∈ lines, '\n' ∉ line) :
    parse (joinWith ['\n'] lines) = ofLines (lines.map cleanLine) := by
  cases lines with
  | nil => rfl
  | cons line rest =>
      rw [parse_eq, Text.joinWith_eq_intercalate, Text.splitWhere_eq_splitOn,
        List.splitOn_intercalate '\n' h (List.cons_ne_nil line rest)]

/-! ## Tags -/

/-- Where a tag decides a field or leaves it alone, the last tag that decides it counts. -/
theorem foldl_addTag_last {β : Type} {field : DocBlock → β} {value : Tag → β} {names : List String}
    (h : ∀ doc tag, field (addTag doc tag) = if tag.isNamed names then value tag else field doc)
    (tags : List Tag) (doc : DocBlock) : field (tags.foldl addTag doc) =
      ((tags.filter (Tag.isNamed names)).getLast?.map value).getD (field doc) := by
  induction tags generalizing doc with
  | nil => rfl
  | cons tag rest ih =>
      rw [List.foldl_cons, ih, h, List.filter_cons]
      cases tag.isNamed names with
      | false => rfl
      | true =>
          rw [if_pos rfl, if_pos rfl, List.getLast?_cons]
          cases (rest.filter (Tag.isNamed names)).getLast? <;> rfl

/-- A tag has one of some names. -/
theorem Tag.isNamed_iff {names : List String} {tag : Tag} :
    tag.isNamed names = true ↔ String.ofList tag.name ∈ names :=
  List.contains_iff_mem

/-- What one tag adds, field by field. -/
theorem addTag_eq (doc : DocBlock) (tag : Tag) : addTag doc tag =
    { description :=
        if tag.isNamed ["description"] then doc.description.or (nonEmpty? tag.text)
        else doc.description
      defaultValue :=
        if tag.isNamed defaultNames then defaultValue? tag.text else doc.defaultValue
      deprecated := if tag.isNamed ["deprecated"] then true else doc.deprecated
      externalName := if tag.isNamed externalNames then firstWord? tag.text else doc.externalName
      eventName := if tag.isNamed eventNames then firstWord? tag.text else doc.eventName
      fires :=
        if tag.isNamed firesNames then doc.fires ++ (firedEvent? tag.text).toList
        else doc.fires } := by
  obtain ⟨description, defaultValue, deprecated, externalName, eventName, fires⟩ := doc
  simp only [addTag, Tag.isNamed_iff, defaultNames, externalNames, eventNames, firesNames,
    List.mem_cons, List.not_mem_nil, or_false]
  generalize String.ofList tag.name = name
  -- No two fields share a name, so each group of names leaves one field to look at.
  by_cases hdefault : name = "default" ∨ name = "defaultValue"
  · rcases hdefault with rfl | rfl <;> simp
  by_cases hdeprecated : name = "deprecated"
  · subst hdeprecated
    simp
  by_cases hexternal : name = "attribute" ∨ name = "attr"
  · rcases hexternal with rfl | rfl <;> simp
  by_cases hevent : name = "event" ∨ name = "eventName"
  · rcases hevent with rfl | rfl <;> simp
  by_cases hfires : name = "fires" ∨ name = "fire" ∨ name = "emits"
  · rcases hfires with rfl | rfl | rfl <;> simp
  by_cases hdescription : name = "description"
  · subst hdescription
    cases description <;> simp
  · simp [hdefault, hdeprecated, hexternal, hevent, hfires, hdescription]

/-- The first description with a text is taken. -/
theorem description_foldl_addTag (tags : List Tag) (doc : DocBlock) :
    (tags.foldl addTag doc).description = doc.description.or
      ((tags.filter (Tag.isNamed ["description"])).findSome? fun tag => nonEmpty? tag.text) := by
  induction tags generalizing doc with
  | nil => simp
  | cons tag rest ih =>
      rw [List.foldl_cons, ih, addTag_eq, List.filter_cons]
      cases tag.isNamed ["description"] with
      | false => rfl
      | true =>
          rw [if_pos rfl, if_pos rfl, List.findSome?_cons, Option.or_assoc]
          cases nonEmpty? tag.text <;> rfl

/-- Every event that can be read is announced, in order. -/
theorem fires_foldl_addTag (tags : List Tag) (doc : DocBlock) :
    (tags.foldl addTag doc).fires = doc.fires ++
      (tags.filter (Tag.isNamed firesNames)).filterMap fun tag => firedEvent? tag.text := by
  induction tags generalizing doc with
  | nil => simp
  | cons tag rest ih =>
      rw [List.foldl_cons, ih, addTag_eq, List.filter_cons]
      cases tag.isNamed firesNames with
      | false => rfl
      | true =>
          rw [if_pos rfl, if_pos rfl, List.filterMap_cons, List.append_assoc]
          cases firedEvent? tag.text <;> rfl

/-- The element is deprecated as soon as one tag says so. -/
theorem deprecated_foldl_addTag (tags : List Tag) (doc : DocBlock) :
    (tags.foldl addTag doc).deprecated =
      (doc.deprecated || tags.any (Tag.isNamed ["deprecated"])) := by
  induction tags generalizing doc with
  | nil => simp
  | cons tag rest ih =>
      rw [List.foldl_cons, ih, addTag_eq, List.any_cons]
      cases tag.isNamed ["deprecated"] <;> simp

/-- The events of a block are those of its tags that announce one, in order. -/
theorem fires_ofLines (lines : List (List Char)) : (ofLines lines).fires =
    ((tagsOf lines).filter (Tag.isNamed firesNames)).filterMap fun tag => firedEvent? tag.text := by
  rw [ofLines_eq, fires_foldl_addTag, List.nil_append]

/-- Where the last tag decides a field that is empty at first, the field is what this tag says. -/
theorem lastOf_ofLines {β : Type} {field : DocBlock → Option β} {value : Tag → Option β}
    {names : List String}
    (h : ∀ doc tag, field (addTag doc tag) = if tag.isNamed names then value tag else field doc)
    (hfirst : ∀ description, field { description } = none) (lines : List (List Char)) :
    field (ofLines lines) = ((tagsOf lines).filter (Tag.isNamed names)).getLast?.bind value := by
  rw [ofLines_eq, foldl_addTag_last h, hfirst]
  cases ((tagsOf lines).filter (Tag.isNamed names)).getLast? <;> rfl

/-- The default value of a block is that of its last default tag. -/
theorem defaultValue_ofLines (lines : List (List Char)) : (ofLines lines).defaultValue =
    ((tagsOf lines).filter (Tag.isNamed defaultNames)).getLast?.bind
      fun tag => defaultValue? tag.text :=
  lastOf_ofLines (fun doc tag => congrArg defaultValue (addTag_eq doc tag)) (fun _ => rfl) lines

/-! ## One tag -/

/-- The names of tags that this library reads are names of tags. -/
theorem isTagName_of_mem {name : String} (h : name ∈ firesNames ++ defaultNames) :
    IsTagName name.toList := by
  simp only [firesNames, defaultNames, List.mem_append, List.mem_cons, List.not_mem_nil,
    or_false] at h
  rcases h with (rfl | rfl | rfl) | rfl | rfl
  · exact ⟨'f', "ires".toList, rfl, by decide, List.all_eq_true.mp (by decide)⟩
  · exact ⟨'f', "ire".toList, rfl, by decide, List.all_eq_true.mp (by decide)⟩
  · exact ⟨'e', "mits".toList, rfl, by decide, List.all_eq_true.mp (by decide)⟩
  · exact ⟨'d', "efault".toList, rfl, by decide, List.all_eq_true.mp (by decide)⟩
  · exact ⟨'d', "efaultValue".toList, rfl, by decide, List.all_eq_true.mp (by decide)⟩

/-- No name breaks the line. -/
theorem IsTagName.noFeed {name : List Char} (h : IsTagName name) : '\n' ∉ name := by
  obtain ⟨first, more, rfl, hfirst, hmore⟩ := h
  have hfeed : isNameCharacter '\n' = false := by decide
  rintro hmem
  rcases List.mem_cons.mp hmem with rfl | hmem
  · exact Bool.false_ne_true (hfeed.symm.trans (isNameCharacter_of_isAsciiLetter hfirst))
  · exact Bool.false_ne_true (hfeed.symm.trans (hmore _ hmem))

/-- Silent lines have no tag of the names. -/
theorem filter_tagsOf_of_silent {names : List String} {lines : List (List Char)}
    (h : ∀ line ∈ lines, Silent names line) :
    (tagsOf (lines.map cleanLine)).filter (Tag.isNamed names) = [] := by
  refine List.filter_eq_nil_iff.mpr fun tag htag => ?_
  obtain ⟨line, hline, start, hstart, hname⟩ := exists_tag?_of_mem htag
  obtain ⟨raw, hraw, rfl⟩ := List.mem_map.mp hline
  have hsilent := h raw hraw start hstart
  rw [Tag.isNamed, hname] at hsilent
  exact ne_true_of_eq_false hsilent

/-- A line of a margin, a tag name, blanks and a text starts this tag with the trimmed text. -/
theorem tag?_cleanLine {name margin gap blanks : List Char} (hname : IsTagName name)
    (hmargin : IsMargin margin) (hgap : AllBlank gap) (hne : gap ≠ []) (hblanks : AllBlank blanks)
    (text : List Char) : tag? (cleanLine (margin ++ ('@' :: name ++ (gap ++ text)) ++ blanks)) =
      some ⟨name, trim text⟩ := by
  obtain ⟨first, more, rfl, hfirst, hmore⟩ := hname
  have hclean : cleanLine (margin ++ ('@' :: first :: more ++ (gap ++ text)) ++ blanks) =
      trim ('@' :: first :: more ++ (gap ++ text)) := by
    refine cleanLine_of_spells ⟨margin, blanks, hmargin, hblanks, rfl⟩ fun hstar => ?_
    obtain ⟨t, ht, -⟩ := Text.trim_cons (c := '@') (by decide) (first :: more ++ (gap ++ text))
    rw [List.cons_append, ht] at hstar
    cases hstar
  rw [hclean]
  exact tag?_trim_tagLine hfirst hmore hgap hne text

/-- In a setting a text is the trimmed text of the one tag of the names. -/
theorem Setting.exists_tags {names : List String} (setting : Setting names)
    (hname : IsTagName setting.name.toList) {text : List Char} (htext : '\n' ∉ text) :
    ∃ lines, parse (setting.comment text) = ofLines lines ∧
      (tagsOf lines).filter (Tag.isNamed names) = [⟨setting.name.toList, trim text⟩] := by
  obtain ⟨before, after, margin, name, gap, blanks, hbefore, hafter, hnext, hmargin, hmem, hgap, hne,
    hblanks, hparts⟩ := setting
  dsimp only at hname ⊢
  have hlines : ∀ line ∈ before ++
      (margin ++ ('@' :: name.toList ++ (gap ++ text)) ++ blanks) :: after, '\n' ∉ line := by
    simp only [List.forall_mem_cons, List.forall_mem_append] at hparts ⊢
    obtain ⟨hmarginFeed, hgapFeed, hblanksFeed, hbeforeFeed, hafterFeed⟩ := hparts
    refine ⟨hbeforeFeed, ?_, hafterFeed⟩
    simp [hmarginFeed, hgapFeed, hblanksFeed, hname.noFeed, htext]
  have htag := tag?_cleanLine hname hmargin hgap hne hblanks text
  have hnamed : Tag.isNamed names ⟨name.toList, trim text⟩ = true := by
    rw [Tag.isNamed_iff, String.ofList_toList]
    exact hmem
  rw [Setting.comment, parse_joinWith hlines]
  refine ⟨_, rfl, ?_⟩
  -- The lines around the text have no tag of the names.
  rw [List.map_append, List.map_cons, tagsOf_append_tag htag, List.filter_append,
    filter_tagsOf_of_silent hbefore, tagsOf, htag]
  dsimp only
  rw [joinTexts_of_empty hnext, List.filter_cons, if_pos hnamed, filter_tagsOf_of_silent hafter]
  rfl

/-- A comment of one line with a star before the tag. -/
theorem Setting.comment_starred {names : List String} {name : String} (h : name ∈ names)
    (text : List Char) : (Setting.starred h).comment text =
      ['*', ' ', '@'] ++ name.toList ++ ' ' :: text := by
  simp [Setting.comment, Setting.starred, joinWith]

/-! ## Blocks -/

/-- **Documentation blocks**: a block depends on its clean lines alone, so the lines may be indented
    and starred in any way.  A line `@name rest` starts a tag, whose text goes on up to the next one;
    what comes before the first tag is the description, for which the first description tag with a
    text stands in.  The last default, external name and event name count, one tag is enough to
    deprecate, and every event that can be read is announced, in order. -/
theorem parse_by_sections (raw : List Char) :
    let lines := (Text.lines raw).map cleanLine
    let tags := tagsOf lines
    let doc := parse raw
    (∀ line tag, tag? line = some tag ↔ StartsTag line tag) ∧
    doc.description = (nonEmpty? (trim (joinWith ['\n'] (freeLines lines)))).or
      ((tags.filter (Tag.isNamed ["description"])).findSome? fun tag => nonEmpty? tag.text) ∧
    doc.defaultValue =
      (tags.filter (Tag.isNamed defaultNames)).getLast?.bind (fun tag => defaultValue? tag.text) ∧
    (doc.deprecated = true ↔ ∃ tag ∈ tags, tag.isNamed ["deprecated"] = true) ∧
    doc.externalName =
      (tags.filter (Tag.isNamed externalNames)).getLast?.bind (fun tag => firstWord? tag.text) ∧
    doc.eventName =
      (tags.filter (Tag.isNamed eventNames)).getLast?.bind (fun tag => firstWord? tag.text) ∧
    doc.fires = (tags.filter (Tag.isNamed firesNames)).filterMap (fun tag => firedEvent? tag.text) ∧
    (∀ other, (Text.lines other).map cleanLine = lines → parse other = doc) ∧
    ∀ pieces pieces', raw = joinWith ['\n'] pieces → (∀ line ∈ pieces, '\n' ∉ line) →
      (∀ line ∈ pieces', '\n' ∉ line) → List.Forall₂ Respelled pieces pieces' →
        parse (joinWith ['\n'] pieces') = doc := by
  intro lines tags doc
  refine ⟨fun line tag => tag?_eq_some_iff, ?_, defaultValue_ofLines lines, ?_, ?_, ?_,
    fires_ofLines lines, fun other hother => ?_, ?_⟩
  · show (ofLines lines).description = _
    rw [ofLines_eq, description_foldl_addTag]
  · show (ofLines lines).deprecated = true ↔ _
    rw [ofLines_eq, deprecated_foldl_addTag, Bool.false_or, List.any_eq_true]
  · exact lastOf_ofLines (fun doc tag => congrArg externalName (addTag_eq doc tag)) (fun _ => rfl)
      lines
  · exact lastOf_ofLines (fun doc tag => congrArg eventName (addTag_eq doc tag)) (fun _ => rfl) lines
  · rw [parse, hother]
    rfl
  · rintro pieces pieces' hraw hpieces hpieces' hrespelled
    show parse _ = parse raw
    rw [hraw, parse_joinWith hpieces, parse_joinWith hpieces', map_cleanLine_of_respelled hrespelled]

/-- A block with a star on every line reads as the same block without the stars. -/
theorem starless_block_read_alike :
    parse "\n\tSaves.\n@default 3".toList = parse "*\n * Saves.\n * @default 3 ".toList := by
  obtain ⟨-, -, -, -, -, -, -, -, hrespelled⟩ :=
    parse_by_sections "*\n * Saves.\n * @default 3 ".toList
  have hstar : IsMargin [' ', '*', ' '] :=
    Or.inr ⟨[' '], [' '], by decide, by decide, rfl⟩
  refine hrespelled ["*".toList, " * Saves.".toList, " * @default 3 ".toList]
    ["".toList, "\tSaves.".toList, "@default 3".toList] rfl (by decide) (by decide) ?_
  refine .cons (Or.inr ⟨[], by decide, ?_, ?_⟩) (.cons (Or.inr ⟨"Saves.".toList, by decide, ?_, ?_⟩)
    (.cons (Or.inr ⟨"@default 3".toList, by decide, ?_, ?_⟩) .nil))
  · exact ⟨['*'], [], Or.inr ⟨[], [], by decide, by decide, rfl⟩, by decide, rfl⟩
  · exact ⟨[], [], Or.inl (by decide), by decide, rfl⟩
  · exact ⟨[' ', '*', ' '], [], hstar, by decide, rfl⟩
  · exact ⟨['\t'], [], Or.inl (by decide), by decide, rfl⟩
  · exact ⟨[' ', '*', ' '], [' '], hstar, by decide, rfl⟩
  · exact ⟨[], [], Or.inl (by decide), by decide, rfl⟩

end DocBlock

end ElementCatalog
