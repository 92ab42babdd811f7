import ElementCatalog.Json.Printer
import ElementCatalog.Json.Typed
import Mathlib.Data.List.Forall2

/-!
# Written JSON — texts that are read back

Toward: what is written is read back by the readers of a known shape, in the compact form and in the
laid-out form alike.  The route:

* the two forms differ in blanks alone, so they are layouts of one printer (`write_tight`,
  `write_wide`);
* a text is read as a value if the reader takes exactly it, behind any blanks and before anything
  that can follow a value (`Reads`);
* the characters of a string are read back one after another (`stringBody_escape`), items by
  induction on the list, and the fields of a record by induction on the states of the record
  (`ReadsFields`).
-/

namespace ElementCatalog.Json

/-! ## Layouts -/

/-- A blank that JSON allows between tokens. -/
def isBlank (c : Char) : Bool :=
  c == ' ' || c == '\n' || c == '\t' || c == '\r'

/-- Only blanks. -/
def IsBlank (text : List Char) : Prop :=
  ∀ c ∈ text, isBlank c = true

/-- The empty text is blank. -/
theorem isBlank_nil : IsBlank [] :=
  List.forall_mem_nil _

/-- The blanks of a written text: before each item at a level of indentation, before the bracket
    that closes it, and behind the colon of a field. -/
structure Layout where
  lineBreak : Nat → List Char
  gap : List Char
  isBlank_lineBreak : ∀ level, IsBlank (lineBreak level)
  isBlank_gap : IsBlank gap

namespace Layout

/-- No blanks at all. -/
def tight : Layout where
  lineBreak _ := []
  gap := []
  isBlank_lineBreak _ := isBlank_nil
  isBlank_gap := isBlank_nil

/-- Every item on a line of its own. -/
def wide : Layout where
  lineBreak level := (Json.lineBreak level).toList
  gap := [' ']
  isBlank_lineBreak level := by
    intro c hc
    rw [Json.lineBreak, String.toList_append, List.mem_append] at hc
    rcases hc with hc | hc
    · rw [List.mem_singleton.mp hc]
      decide
    · rw [String.toList_ofList] at hc
      rw [List.eq_of_mem_replicate hc]
      decide
  isBlank_gap := by
    intro c hc
    rw [List.mem_singleton.mp hc]
    decide

variable (l : Layout)

mutual

/-- The characters of a value at a level of indentation. -/
def write (level : Nat) : Json → List Char
  | .array (item :: items) =>
    '[' :: [','].intercalate (writeItems (level + 1) (item :: items)) ++ l.lineBreak level ++ [']']
  | .object (field :: fields) =>
    '{' :: [','].intercalate (writeFields (level + 1) (field :: fields)) ++ l.lineBreak level ++
      ['}']
  | value => (compact value).toList

/-- The characters of the items of an array, each with the blanks before it. -/
def writeItems (level : Nat) : List Json → List (List Char)
  | [] => []
  | item :: items => (l.lineBreak level ++ write level item) :: writeItems level items

/-- The characters of the fields of an object, each with the blanks before it. -/
def writeFields (level : Nat) : List (String × Json) → List (List Char)
  | [] => []
  | (name, value) :: fields =>
    (l.lineBreak level ++ ((quoted name).toList ++ ':' :: (l.gap ++ write level value))) ::
      writeFields level fields

end

end Layout

mutual

/-- Without blanks, the compact text is written. -/
theorem write_tight (level : Nat) : ∀ value, Layout.tight.write level value = (compact value).toList
  | .null | .bool _ | .int _ | .float _ | .string _ | .array [] | .object [] => rfl
  | .array (item :: items) => by
      rw [Layout.write, writeItems_tight (level + 1) (item :: items)]
      simp [compact, Layout.tight, String.toList_intercalate]
  | .object (field :: fields) => by
      rw [Layout.write, writeFields_tight (level + 1) (field :: fields)]
      simp [compact, Layout.tight, String.toList_intercalate]

/-- Without blanks, the compact texts of items are written. -/
theorem writeItems_tight (level : Nat) :
    ∀ items, Layout.tight.writeItems level items = (compactItems items).map String.toList
  | [] => rfl
  | item :: items => by
      rw [Layout.writeItems, write_tight level item, writeItems_tight level items]
      rfl

/-- Without blanks, the compact texts of fields are written. -/
theorem writeFields_tight (level : Nat) :
    ∀ fields, Layout.tight.writeFields level fields = (compactFields fields).map String.toList
  | [] => rfl
  | (name, value) :: fields => by
      rw [Layout.writeFields, write_tight level value, writeFields_tight level fields]
      simp [compactFields, Layout.tight]

end

mutual

/-- With line breaks, the laid-out text is written. -/
theorem write_wide : ∀ (level : Nat) (value : Json),
    Layout.wide.write level value = (prettyAt level value).toList
  | _, .null | _, .bool _ | _, .int _ | _, .float _ | _, .string _ | _, .array [] | _, .object [] =>
      rfl
  | level, .array (item :: items) => by
      rw [Layout.write, writeItems_wide (level + 1) (item :: items)]
      simp [prettyAt, Layout.wide, String.toList_intercalate]
  | level, .object (field :: fields) => by
      rw [Layout.write, writeFields_wide (level + 1) (field :: fields)]
      simp [prettyAt, Layout.wide, String.toList_intercalate]

/-- With line breaks, the laid-out texts of items are written. -/
theorem writeItems_wide : ∀ (level : Nat) (items : List Json),
    Layout.wide.writeItems level items = (prettyItems level items).map String.toList
  | _, [] => rfl
  | level, item :: items => by
      rw [Layout.writeItems, write_wide level item, writeItems_wide level items]
      simp [prettyItems, Layout.wide]

/-- With line breaks, the laid-out texts of fields are written. -/
theorem writeFields_wide : ∀ (level : Nat) (fields : List (String × Json)),
    Layout.wide.writeFields level fields = (prettyFields level fields).map String.toList
  | _, [] => rfl
  | level, (name, value) :: fields => by
      rw [Layout.writeFields, write_wide level value, writeFields_wide level fields]
      simp [prettyFields, Layout.wide]

end

/-! ## Readers -/

/-- What may follow a value: nothing, a comma, a closing bracket or a blank. -/
def IsEnd (text : List Char) : Prop :=
  ∀ c ∈ text.head?, (c == ',' || c == ']' || c == '}' || isBlank c) = true

/-- Nothing may follow a value. -/
theorem isEnd_nil : IsEnd [] := by
  intro c hc
  cases hc

/-- A text starts with what is no blank and closes nothing. -/
def IsStart (text : List Char) : Prop :=
  ∃ c rest, text = c :: rest ∧ isBlank c = false ∧ c ≠ ']' ∧ c ≠ '}'

/-- A text is read as a value, behind any blanks and before anything that may follow. -/
structure Reads {α : Type} (read : List Char → Except Fault (α × List Char)) (text : List Char)
    (value : α) : Prop where
  isStart : IsStart text
  read_eq : ∀ before rest, IsBlank before → IsEnd rest →
    read (before ++ text ++ rest) = .ok (value, rest)

/-- What has been read is put to use. -/
theorem Reads.map {α β : Type} {read : List Char → Except Fault (α × List Char)}
    {text : List Char} {value : α} (h : Reads read text value) (f : α → β) :
    Reads (fun text => (read text).map fun (a, rest) => (f a, rest)) text (f value) := by
  refine ⟨h.isStart, fun before rest hbefore hrest => ?_⟩
  show (read (before ++ text ++ rest)).map _ = _
  rw [h.read_eq before rest hbefore hrest]
  rfl

/-- Blanks are dropped. -/
theorem skipBlanks_append {before : List Char} (h : IsBlank before) (text : List Char) :
    skipBlanks (before ++ text) = skipBlanks text :=
  List.dropWhile_append_of_pos h

/-- A text that starts with something else is left as it is. -/
theorem skipBlanks_of_isStart {text : List Char} (h : IsStart text) (rest : List Char) :
    skipBlanks (text ++ rest) = text ++ rest := by
  obtain ⟨c, more, rfl, hc, -⟩ := h
  exact List.dropWhile_cons_of_neg (ne_true_of_eq_false hc)

/-- Blanks before an end are an end. -/
theorem IsEnd.append {before rest : List Char} (hblank : IsBlank before) (h : IsEnd rest) :
    IsEnd (before ++ rest) := by
  cases before with
  | nil => exact h
  | cons c more =>
      intro first hfirst
      cases hfirst
      rw [hblank c List.mem_cons_self, Bool.or_true]

/-! ## Strings -/

/-- A digit of base sixteen is read back. -/
theorem hexDigit?_digitChar : ∀ n < 16, Decimal.hexDigit? (Nat.digitChar n) = some n := by
  decide

/-- Four characters are enough for four digits. -/
theorem four_le_size (a b c d : Char) (rest : List Char) :
    4 ≤ (a :: b :: c :: d :: rest).foldl (fun n c => n + c.utf8Size) 0 := by
  have hgrows : ∀ (text : List Char) (n : Nat), n ≤ text.foldl (fun n c => n + c.utf8Size) n := by
    intro text
    induction text with
    | nil => exact fun n => Nat.le_refl n
    | cons c rest ih =>
        intro n
        exact Nat.le_trans (Nat.le_add_right n c.utf8Size) (ih _)
  have ha := a.utf8Size_pos
  have hb := b.utf8Size_pos
  have hc := c.utf8Size_pos
  have hd := d.utf8Size_pos
  refine Nat.le_trans ?_ (hgrows rest _)
  dsimp only
  omega

/-- A numbered escape is read back. -/
theorem numberedEscape_digits {c : Char} (h : c.toNat < 32) (rest : List Char) :
    numberedEscape ('0' :: '0' :: Nat.digitChar (c.toNat / 16) :: Nat.digitChar (c.toNat % 16) ::
      rest) = .ok (c, rest) := by
  have hdigits : fourDigits ('0' :: '0' :: Nat.digitChar (c.toNat / 16) ::
      Nat.digitChar (c.toNat % 16) :: rest) = .ok (c.toNat, rest) := by
    rw [fourDigits, if_neg (Nat.not_lt.mpr (four_le_size _ _ _ _ rest)),
      hexDigit?_digitChar _ (by omega), hexDigit?_digitChar _ (by omega)]
    have hzero : Decimal.hexDigit? '0' = some 0 := by decide
    rw [hzero]
    dsimp only
    have hvalue : ((0 * 16 + 0) * 16 + c.toNat / 16) * 16 + c.toNat % 16 = c.toNat := by omega
    rw [hvalue]
  show (fourDigits _ >>= _) = _
  rw [hdigits]
  show (if 0xDC00 ≤ c.toNat ∧ c.toNat ≤ 0xDFFF then _ else _) = _
  rw [if_neg (by omega), if_neg (by omega), Char.ofNat_toNat]

/-- A character is told by its number. -/
theorem eq_ofNat_of_toNat {c : Char} {n : Nat} (h : (c.toNat == n) = true) : c = Char.ofNat n := by
  rw [← beq_iff_eq.mp h, Char.ofNat_toNat]

/-- A character is escaped by a letter or by its number, or stands for itself. -/
theorem escape_cases (c : Char) :
    (∃ e, e ≠ 'u' ∧ simpleEscape? e = some c ∧ escape c = ['\\', e]) ∨
      (c.toNat < 32 ∧ escape c =
        ['\\', 'u', '0', '0', Nat.digitChar (c.toNat / 16), Nat.digitChar (c.toNat % 16)]) ∨
        (¬c.toNat < 32 ∧ c.toNat ≠ 0x22 ∧ c ≠ '\\' ∧ escape c = [c]) := by
  have hletter {n : Nat} {e : Char} (h : (c.toNat == n) = true) (hu : e ≠ 'u')
      (he : simpleEscape? e = some (Char.ofNat n)) :
      ∃ e', e' ≠ 'u' ∧ simpleEscape? e' = some c ∧ ['\\', e] = ['\\', e'] :=
    ⟨e, hu, eq_ofNat_of_toNat h ▸ he, rfl⟩
  rw [escape]
  split_ifs with hquote hbackslash hb ht hn hf hr hcontrol
  · rw [eq_ofNat_of_toNat hquote] at hletter ⊢
    exact Or.inl (hletter (n := 0x22) (by decide) (by decide) (by decide))
  · exact Or.inl (hletter hbackslash (by decide) (by decide))
  · exact Or.inl (hletter hb (by decide) (by decide))
  · exact Or.inl (hletter ht (by decide) (by decide))
  · exact Or.inl (hletter hn (by decide) (by decide))
  · exact Or.inl (hletter hf (by decide) (by decide))
  · exact Or.inl (hletter hr (by decide) (by decide))
  · exact Or.inr (Or.inl ⟨hcontrol, rfl⟩)
  · refine Or.inr (Or.inr ⟨hcontrol, fun h => hquote (beq_iff_eq.mpr h), ?_, rfl⟩)
    rintro rfl
    exact hbackslash (by decide)

/-- The escape of a character is read back. -/
theorem stringBody_escape (fuel : Nat) (c : Char) (text : List Char) :
    stringBody (fuel + 1) (escape c ++ text) =
      (stringBody fuel text).map fun (cs, rest) => (c :: cs, rest) := by
  rcases escape_cases c with
    ⟨e, hu, he, hescape⟩ | ⟨hcontrol, hescape⟩ | ⟨hcontrol, hquote, hbackslash, hescape⟩
  · rw [hescape, List.cons_append, List.cons_append, List.nil_append, stringBody]
    · rw [he]
      cases stringBody fuel text <;> rfl
    · exact hu
  · rw [hescape]
    have hdigits := numberedEscape_digits hcontrol text
    show (numberedEscape ('0' :: '0' :: Nat.digitChar (c.toNat / 16) ::
      Nat.digitChar (c.toNat % 16) :: text) >>= _) = _
    rw [hdigits]
    show (stringBody fuel text >>= fun p => Except.ok (c :: p.1, p.2)) = _
    cases stringBody fuel text <;> rfl
  · rw [hescape, List.cons_append, List.nil_append, stringBody]
    · rw [if_neg (by simpa using hquote), if_neg hcontrol]
      cases stringBody fuel text <;> rfl
    · exact hbackslash

/-- The body of a string is read back up to its closing quote. -/
theorem stringBody_flatMap_escape (s : List Char) (rest : List Char) : ∀ fuel, s.length < fuel →
    stringBody fuel (s.flatMap escape ++ Char.ofNat 0x22 :: rest) = .ok (s, rest) := by
  induction s with
  | nil =>
      intro fuel hfuel
      obtain ⟨fuel, rfl⟩ := Nat.exists_eq_add_of_lt hfuel
      rw [List.length_nil, Nat.zero_add]
      rfl
  | cons c s ih =>
      intro fuel hfuel
      obtain ⟨fuel, rfl⟩ : ∃ n, fuel = n + 1 :=
        Nat.exists_eq_succ_of_ne_zero (Nat.ne_of_gt (Nat.lt_of_le_of_lt (Nat.zero_le _) hfuel))
      rw [List.flatMap_cons, List.append_assoc, stringBody_escape, ih fuel (by simpa using hfuel)]
      rfl

/-- The characters of a string in quotes. -/
theorem toList_quoted (s : String) : (quoted s).toList =
    Char.ofNat 0x22 :: (s.toList.flatMap escape ++ [Char.ofNat 0x22]) := by
  have hquote : "\"".toList = [Char.ofNat 0x22] := by decide
  simp only [quoted, String.toList_append, String.toList_ofList, hquote, List.singleton_append]
  rfl

/-- An escape has at least one character. -/
theorem length_escape_pos (c : Char) : 0 < (escape c).length := by
  rcases escape_cases c with ⟨e, -, -, h⟩ | ⟨-, h⟩ | ⟨-, -, -, h⟩
  all_goals
    rw [h]
    exact Nat.succ_pos _

/-- A string is not longer than its escapes. -/
theorem length_le_flatMap_escape (s : List Char) : s.length ≤ (s.flatMap escape).length := by
  induction s with
  | nil => exact Nat.le_refl 0
  | cons c s ih =>
      have hc := length_escape_pos c
      rw [List.flatMap_cons, List.length_append, List.length_cons]
      omega

/-- A string is read back after its opening quote. -/
theorem stringRest_escape (s : String) (rest : List Char) :
    stringRest (s.toList.flatMap escape ++ Char.ofNat 0x22 :: rest) = .ok (s, rest) := by
  have hlength := length_le_flatMap_escape s.toList
  have hbody := stringBody_flatMap_escape s.toList rest
    ((s.toList.flatMap escape ++ Char.ofNat 0x22 :: rest).length + 1)
    (by rw [List.length_append]; omega)
  rw [stringRest, hbody]
  show Except.ok (String.ofList s.toList, rest) = _
  rw [String.ofList_toList]

/-- A string in quotes is read back. -/
theorem reads_quoted (s : String) : Reads readString (quoted s).toList s := by
  have hstart : IsStart (quoted s).toList := by
    rw [toList_quoted]
    exact ⟨_, _, rfl, by decide, by decide, by decide⟩
  refine ⟨hstart, fun before rest hbefore _ => ?_⟩
  rw [readString, List.append_assoc, skipBlanks_append hbefore, skipBlanks_of_isStart hstart,
    toList_quoted]
  show stringRest ((s.toList.flatMap escape ++ [Char.ofNat 0x22]) ++ rest) = _
  rw [List.append_assoc]
  exact stringRest_escape s rest

/-! ## Lists -/

/-- Texts with commas between them: the first one, and each other one behind a comma. -/
theorem intercalate_comma (first : List Char) (rest : List (List Char)) :
    [','].intercalate (first :: rest) = first ++ rest.flatMap (',' :: ·) := by
  induction rest generalizing first with
  | nil => simp
  | cons second rest ih =>
      rw [List.intercalate_cons_cons, ih, List.flatMap_cons]
      simp

/-- There are not more texts than characters, with the commas. -/
theorem length_le_flatMap_comma (texts : List (List Char)) :
    texts.length ≤ (texts.flatMap (',' :: ·)).length := by
  induction texts with
  | nil => exact Nat.le_refl 0
  | cons text rest ih =>
      rw [List.flatMap_cons, List.length_append, List.length_cons, List.length_cons]
      omega

/-- Behind a value stands a comma or what closes the list. -/
theorem isEnd_tail {close rest : List Char} {bracket : Char} (hclose : IsBlank close)
    (hbracket : bracket = ']' ∨ bracket = '}') (texts : List (List Char)) :
    IsEnd (texts.flatMap (',' :: ·) ++ (close ++ bracket :: rest)) := by
  cases texts with
  | nil =>
      have hend : IsEnd (bracket :: rest) := by
        intro c hc
        cases hc
        rcases hbracket with rfl | rfl <;> rfl
      show IsEnd (close ++ bracket :: rest)
      exact hend.append hclose
  | cons text texts =>
      intro c hc
      cases hc
      rfl

section Items

variable {α : Type} {item : List Char → Except Fault (α × List Char)} {before close rest : List Char}

/-- One item more is read, behind its comma unless it is the first one. -/
theorem items_cons (hbefore : IsBlank before) {text : List Char} {value : α}
    (h : Reads item text value) {fuel : Nat} {values : List α} {after : List Char}
    (hrest : IsEnd rest) (hvalues : items item fuel false rest = .ok (values, after))
    (first : Bool) :
    items item (fuel + 1) first ((if first then [] else [',']) ++ (before ++ text ++ rest)) =
      .ok (value :: values, after) := by
  have hitem : item (text ++ rest) = .ok (value, rest) := h.read_eq [] rest isBlank_nil hrest
  have hnext : skipBlanks (before ++ text ++ rest) = text ++ rest := by
    rw [List.append_assoc, skipBlanks_append hbefore, skipBlanks_of_isStart h.isStart]
  obtain ⟨c, more, rfl, -, hbracket, -⟩ := h.isStart
  have hmore : (item (c :: more ++ rest) >>= fun (x, rest) =>
      items item fuel false rest >>= fun (xs, rest) => Except.ok (x :: xs, rest)) =
        .ok (value :: values, after) := by
    rw [hitem]
    show (items item fuel false rest >>= _) = _
    rw [hvalues]
    rfl
  -- The first item starts right here, every other one behind its comma.
  cases first with
  | true =>
      rw [if_pos rfl, List.nil_append, items, hnext]
      split
      · contradiction
      · rename_i heq
        cases heq
        exact absurd rfl hbracket
      · rename_i heq
        rw [if_pos rfl, ← heq]
        exact hmore
  | false =>
      have hcomma : skipBlanks ([','] ++ (before ++ c :: more ++ rest)) =
          ',' :: (before ++ c :: more ++ rest) := rfl
      rw [if_neg Bool.false_ne_true, items, hcomma]
      split
      · contradiction
      · rename_i heq
        exact absurd (List.head_eq_of_cons_eq heq) (by decide)
      · rename_i heq
        cases heq
        rw [if_neg Bool.false_ne_true, if_neg (by decide), hnext]
        split
        · contradiction
        · rename_i heq
          cases heq
          exact absurd rfl hbracket
        · exact hmore

/-- A list ends with its bracket. -/
theorem items_nil (hclose : IsBlank close) (fuel : Nat) (first : Bool) :
    items item (fuel + 1) first (close ++ ']' :: rest) = .ok ([], rest) := by
  rw [items, skipBlanks_append hclose]
  rfl

/-- The items behind the first one are read. -/
theorem items_tail (rest : List Char) (hbefore : IsBlank before) (hclose : IsBlank close)
    {texts : List (List Char)} {values : List α}
    (h : List.Forall₂ (Reads item) texts values) : ∀ fuel, texts.length < fuel →
      items item fuel false
        ((texts.map (before ++ ·)).flatMap (',' :: ·) ++ (close ++ ']' :: rest)) =
          .ok (values, rest) := by
  induction h with
  | nil =>
      intro fuel hfuel
      obtain ⟨fuel, rfl⟩ := Nat.exists_eq_add_of_lt hfuel
      rw [List.length_nil, Nat.zero_add]
      exact items_nil hclose fuel false
  | @cons text value texts values hfirst hrest ih =>
      intro fuel hfuel
      obtain ⟨fuel, rfl⟩ : ∃ n, fuel = n + 1 :=
        Nat.exists_eq_succ_of_ne_zero (Nat.ne_of_gt (Nat.zero_lt_of_lt hfuel))
      have hvalues := ih fuel (Nat.lt_of_succ_lt_succ hfuel)
      have hnext := items_cons hbefore hfirst
        (isEnd_tail hclose (Or.inl rfl) _) hvalues false
      rw [List.map_cons, List.flatMap_cons, List.append_assoc]
      exact hnext

/-- The items of a list are read back. -/
theorem items_intercalate (rest : List Char) (hbefore : IsBlank before) (hclose : IsBlank close)
    {texts : List (List Char)} {values : List α} (h : List.Forall₂ (Reads item) texts values) :
    items item (([','].intercalate (texts.map (before ++ ·)) ++ (close ++ ']' :: rest)).length + 1)
        true ([','].intercalate (texts.map (before ++ ·)) ++ (close ++ ']' :: rest)) =
      .ok (values, rest) := by
  cases h with
  | nil => exact items_nil hclose _ true
  | @cons text value texts values hfirst hrest =>
      rw [List.map_cons, intercalate_comma, List.append_assoc]
      have hlength := length_le_flatMap_comma (texts.map (before ++ ·))
      rw [List.length_map] at hlength
      have hvalues := items_tail rest hbefore hclose hrest
        ((before ++ text ++ ((texts.map (before ++ ·)).flatMap (',' :: ·) ++
          (close ++ ']' :: rest))).length)
        (by simp only [List.length_append, List.length_cons]; omega)
      exact items_cons hbefore hfirst (isEnd_tail hclose (Or.inl rfl) _) hvalues true

end Items

/-- The items of a list are written one by one, behind the blanks of their level. -/
theorem writeItems_eq (l : Layout) (level : Nat) (values : List Json) :
    l.writeItems level values = (values.map (l.write level)).map (l.lineBreak level ++ ·) := by
  induction values with
  | nil => rfl
  | cons value rest ih =>
      rw [Layout.writeItems, ih]
      rfl

/-- A list is written between brackets. -/
theorem write_array (l : Layout) (level : Nat) (values : List Json) :
    ∃ close, IsBlank close ∧ l.write level (.array values) =
      '[' :: ([','].intercalate
        ((values.map (l.write (level + 1))).map (l.lineBreak (level + 1) ++ ·)) ++
          (close ++ [']'])) := by
  cases values with
  | nil => exact ⟨[], isBlank_nil, rfl⟩
  | cons value rest =>
      refine ⟨l.lineBreak level, l.isBlank_lineBreak level, ?_⟩
      rw [← writeItems_eq, ← List.append_assoc]
      rfl

/-- A list of texts is read back. -/
theorem reads_strings (l : Layout) (level : Nat) (names : List String) :
    Reads readStrings (l.write level (.strings names)) names := by
  obtain ⟨close, hclose, htext⟩ := write_array l level (names.map .string)
  have hreads : List.Forall₂ (Reads readString) (names.map fun n => (quoted n).toList) names :=
    List.forall₂_map_left_iff.mpr (List.forall₂_same.mpr fun n _ => reads_quoted n)
  have htexts : (names.map Json.string).map (l.write (level + 1)) =
      names.map fun n => (quoted n).toList := by
    rw [List.map_map]
    rfl
  rw [htexts] at htext
  rw [Json.strings, htext]
  refine ⟨⟨_, _, rfl, by decide, by decide, by decide⟩, fun before rest hbefore _ => ?_⟩
  rw [readStrings, List.append_assoc, skipBlanks_append hbefore]
  have hitems := items_intercalate rest (l.isBlank_lineBreak (level + 1)) hclose hreads
  rw [List.cons_append, List.append_assoc, List.append_assoc]
  exact hitems

/-- A flag is read back. -/
theorem reads_bool (l : Layout) (level : Nat) (flag : Bool) :
    Reads readBool (l.write level (.bool flag)) flag := by
  cases flag with
  | true =>
      refine ⟨⟨_, _, rfl, by decide, by decide, by decide⟩, fun before rest hbefore _ => ?_⟩
      rw [readBool, List.append_assoc, skipBlanks_append hbefore]
      rfl
  | false =>
      refine ⟨⟨_, _, rfl, by decide, by decide, by decide⟩, fun before rest hbefore _ => ?_⟩
      rw [readBool, List.append_assoc, skipBlanks_append hbefore]
      rfl

/-- A text is read back where there may be none. -/
theorem reads_optionalString (s : String) :
    Reads readOptionalString (quoted s).toList (some s) := by
  have hstring := reads_quoted s
  refine ⟨hstring.isStart, fun before rest hbefore hrest => ?_⟩
  have hread := hstring.read_eq [] rest isBlank_nil hrest
  rw [List.nil_append] at hread
  rw [readOptionalString, List.append_assoc, skipBlanks_append hbefore,
    skipBlanks_of_isStart hstring.isStart]
  split
  · rename_i heq
    rw [toList_quoted] at heq
    cases heq
  · rw [hread]
    rfl

/-! ## Fields -/

section Fields

variable {σ : Type} (l : Layout) (level : Nat)
  (field : σ → String → List Char → Except Fault (σ × List Char))

/-- The fields of an object take a state to another one: each of them is read from its colon on, up
    to anything that may follow its value. -/
inductive FoldsFields : σ → List (String × Json) → σ → Prop where
  | nil (state : σ) : FoldsFields state [] state
  | cons {state next final : σ} {name : String} {value : Json} {entries : List (String × Json)}
    (hread : ∀ rest, IsEnd rest →
      field state name (':' :: (l.gap ++ l.write level value ++ rest)) = .ok (next, rest))
    (h : FoldsFields next entries final) : FoldsFields state ((name, value) :: entries) final

variable {l level field} {state next final : σ} {name : String} {close rest : List Char}

/-- One field more is read, behind its comma unless it is the first one. -/
theorem fields_cons {value : Json}
    (hread : field state name (':' :: (l.gap ++ l.write level value ++ rest)) = .ok (next, rest))
    {fuel : Nat} {after : List Char}
    (hmore : fields field fuel false next rest = .ok (final, after)) (first : Bool) :
    fields field (fuel + 1) first state ((if first then [] else [',']) ++
      (l.lineBreak level ++
        ((quoted name).toList ++ ':' :: (l.gap ++ l.write level value)) ++ rest)) =
      .ok (final, after) := by
  -- The text of the field is a quote, the name up to the next quote, and what follows the name.
  have htext : l.lineBreak level ++
      ((quoted name).toList ++ ':' :: (l.gap ++ l.write level value)) ++ rest =
        l.lineBreak level ++ Char.ofNat 0x22 :: (name.toList.flatMap escape ++
          Char.ofNat 0x22 :: ':' :: (l.gap ++ l.write level value ++ rest)) := by
    rw [toList_quoted]
    simp only [List.append_assoc, List.cons_append, List.nil_append]
  have hread' : (stringRest (name.toList.flatMap escape ++
      Char.ofNat 0x22 :: ':' :: (l.gap ++ l.write level value ++ rest)) >>= fun key =>
        field state key.1 key.2 >>= fun read =>
          fields field fuel false read.1 read.2) = .ok (final, after) := by
    rw [stringRest_escape]
    show (field state name _ >>= _) = _
    rw [hread]
    exact hmore
  rw [htext]
  cases first with
  | true =>
      rw [if_pos rfl, List.nil_append, fields, skipBlanks_append (l.isBlank_lineBreak level)]
      exact hread'
  | false =>
      have hcomma (text : List Char) : skipBlanks ([','] ++ text) = ',' :: text := rfl
      rw [if_neg Bool.false_ne_true, fields, hcomma]
      split
      · contradiction
      · rename_i heq
        exact absurd (List.head_eq_of_cons_eq heq) (by decide)
      · rename_i heq
        cases heq
        rw [if_neg Bool.false_ne_true, if_neg (by decide),
          skipBlanks_append (l.isBlank_lineBreak level)]
        exact hread'

/-- An object ends with its brace. -/
theorem fields_nil (hclose : IsBlank close) (fuel : Nat) (first : Bool) :
    fields field (fuel + 1) first state (close ++ '}' :: rest) = .ok (state, rest) := by
  rw [fields, skipBlanks_append hclose]
  rfl

/-- The fields behind the first one are read. -/
theorem fields_tail (rest : List Char) (hclose : IsBlank close) {entries : List (String × Json)}
    (h : FoldsFields l level field state entries final) : ∀ fuel, entries.length < fuel →
      fields field fuel false state
        ((l.writeFields level entries).flatMap (',' :: ·) ++ (close ++ '}' :: rest)) =
          .ok (final, rest) := by
  induction h with
  | nil state =>
      intro fuel hfuel
      obtain ⟨fuel, rfl⟩ := Nat.exists_eq_add_of_lt hfuel
      rw [List.length_nil, Nat.zero_add]
      exact fields_nil hclose fuel false
  | cons hread _ ih =>
      intro fuel hfuel
      obtain ⟨fuel, rfl⟩ : ∃ n, fuel = n + 1 :=
        Nat.exists_eq_succ_of_ne_zero (Nat.ne_of_gt (Nat.zero_lt_of_lt hfuel))
      have hmore := ih fuel (Nat.lt_of_succ_lt_succ hfuel)
      have hnext := fields_cons (hread _ (isEnd_tail hclose (Or.inr rfl) _)) hmore false
      rw [Layout.writeFields, List.flatMap_cons, List.append_assoc]
      exact hnext

/-- There are as many texts as fields. -/
theorem length_writeFields (l : Layout) (level : Nat) (entries : List (String × Json)) :
    (l.writeFields level entries).length = entries.length := by
  induction entries with
  | nil => rfl
  | cons entry rest ih =>
      obtain ⟨name, value⟩ := entry
      rw [Layout.writeFields, List.length_cons, List.length_cons, ih]

/-- The fields of an object are read back. -/
theorem fields_intercalate (rest : List Char) (hclose : IsBlank close)
    {entries : List (String × Json)} (h : FoldsFields l level field state entries final) :
    fields field
        (([','].intercalate (l.writeFields level entries) ++ (close ++ '}' :: rest)).length + 1)
        true state ([','].intercalate (l.writeFields level entries) ++ (close ++ '}' :: rest)) =
      .ok (final, rest) := by
  cases h with
  | nil => exact fields_nil hclose _ true
  | @cons _ next _ name value entries hread hmore =>
      rw [Layout.writeFields, intercalate_comma, List.append_assoc]
      have hlength := length_le_flatMap_comma (l.writeFields level entries)
      rw [length_writeFields] at hlength
      have htail := fields_tail rest hclose hmore
        ((l.lineBreak level ++ ((quoted name).toList ++ ':' :: (l.gap ++ l.write level value)) ++
          ((l.writeFields level entries).flatMap (',' :: ·) ++ (close ++ '}' :: rest))).length)
        (by simp only [List.length_append, List.length_cons]; omega)
      exact fields_cons (hread _ (isEnd_tail hclose (Or.inr rfl) _)) htail true

end Fields

/-- An object is written between braces. -/
theorem write_object (l : Layout) (level : Nat) (entries : List (String × Json)) :
    ∃ close, IsBlank close ∧ l.write level (.object entries) =
      '{' :: ([','].intercalate (l.writeFields (level + 1) entries) ++ (close ++ ['}'])) := by
  cases entries with
  | nil => exact ⟨[], isBlank_nil, rfl⟩
  | cons entry rest =>
      refine ⟨l.lineBreak level, l.isBlank_lineBreak level, ?_⟩
      rw [← List.append_assoc]
      rfl

/-! ## Records -/

section Records

variable {σ : Type} (l : Layout) (level : Nat) (shape : List (RecordField σ))

/-- The fields of an object take a record from one state to another: each of them is a field of the
    record that has not been met yet, and its value is read back. -/
inductive ReadsFields : σ → List String → List (String × Json) → σ → Prop where
  | nil (state : σ) (seen : List String) : ReadsFields state seen [] state
  | cons {state next final : σ} {seen : List String} {name : String} {value : Json}
      {fields : List (String × Json)} (field : RecordField σ) :
      (shape.find? fun f => f.name == name) = some field → seen.contains name = false →
        Reads (field.read state) (l.write level value) next →
          ReadsFields next (name :: seen) fields final →
            ReadsFields state seen ((name, value) :: fields) final

variable {l level shape} {state next final : σ} {seen : List String} {name : String}

/-- A named field is read behind its colon. -/
theorem namedField_eq {field : RecordField σ} {text rest : List Char}
    (hfield : (shape.find? fun f => f.name == name) = some field)
    (hseen : seen.contains name = false)
    (hread : Reads (field.read state) text next) (hrest : IsEnd rest) :
    namedField shape (state, seen) name (':' :: (l.gap ++ text ++ rest)) =
      .ok ((next, name :: seen), rest) := by
  rw [namedField, hfield]
  dsimp only
  rw [hseen, if_neg Bool.false_ne_true]
  show (field.read state (l.gap ++ text ++ rest) >>= _) = _
  rw [hread.read_eq l.gap rest l.isBlank_gap hrest]
  rfl

/-- Fields of a record are read with the names that have been met beside the record. -/
theorem ReadsFields.folds {entries : List (String × Json)}
    (h : ReadsFields l level shape state seen entries final) :
    ∃ seen', FoldsFields l level (namedField shape) (state, seen) entries (final, seen') := by
  induction h with
  | nil state seen => exact ⟨seen, .nil _⟩
  | cons field hfield hseen hread _ ih =>
      obtain ⟨seen', hmore⟩ := ih
      exact ⟨seen', .cons (fun rest hrest => namedField_eq hfield hseen hread hrest) hmore⟩

/-- **Records**: an object whose fields take a record from its start to a state is read as this
    state. -/
theorem ReadsFields.reads {entries : List (String × Json)}
    (h : ReadsFields l (level + 1) shape state [] entries final) :
    Reads (readRecord shape state) (l.write level (.object entries)) final := by
  obtain ⟨close, hclose, htext⟩ := write_object l level entries
  obtain ⟨seen', hfolds⟩ := h.folds
  rw [htext]
  refine ⟨⟨'{', _, rfl, by decide, by decide, by decide⟩, fun before rest hbefore _ => ?_⟩
  rw [readRecord, List.append_assoc, skipBlanks_append hbefore, List.cons_append, List.append_assoc,
    List.append_assoc]
  show (fields (namedField shape) (_ + 1) true (state, []) _).map _ = _
  rw [List.singleton_append, fields_intercalate rest hclose hfolds]
  rfl

end Records

end ElementCatalog.Json
