import ElementCatalog.Proofs.DocSections
import ElementCatalog.Proofs.JsonRoundTrip

/-!
# Default tags — a value in a comment is read back whole

Toward: the compact text of a value behind a default tag gives this value, and a text between single
quotes gives this text.  The route:

* both texts fit on one line and are trimmed (`Exact.noFeed_compact`, `Exact.isTrimmed_compact`), so
  the lines of the comment and the blanks around the text take nothing away;
* the compact text is read back by the reader of JSON, which refuses a single quote, and the quotes
  are then taken off.
-/

namespace ElementCatalog

open Text (IsTrimmed trim)

/-! ## Texts on one line -/

namespace Text

/-- A text between two characters that are not blank is trimmed. -/
theorem isTrimmed_between {a b : Char} (ha : isBlank a = false) (hb : isBlank b = false)
    (s : List Char) : IsTrimmed (a :: (s ++ [b])) :=
  IsTrimmed.cons_append ha s ⟨fun _ hc => Option.mem_some.mp hc ▸ hb,
    fun _ hc => Option.mem_some.mp hc ▸ hb⟩ (List.cons_ne_nil b [])

/-- A text without blanks is trimmed. -/
theorem isTrimmed_of_noBlank {s : List Char} (h : ∀ c ∈ s, isBlank c = false) : IsTrimmed s :=
  ⟨fun c hc => h c (List.mem_of_mem_head? hc), fun c hc => h c (List.mem_of_mem_getLast? hc)⟩

/-- Digits are no blanks. -/
theorem isBlank_of_isDigit {c : Char} (h : isDigit c = true) : isBlank c = false := by
  refine Bool.eq_false_iff.mpr fun hblank => ?_
  rw [isDigit, Bool.and_eq_true, decide_eq_true_eq, decide_eq_true_eq] at h
  have hno : ∀ n ∈ DocBlock.blankCodes, ¬('0'.toNat ≤ n ∧ n ≤ '9'.toNat) := by decide
  exact hno c.toNat (DocBlock.toNat_mem_blankCodes hblank) h

end Text

namespace Json

/-- A whole number has no blanks. -/
theorem noBlank_int (value : Int) : ∀ c ∈ (compact (.int value)).toList, Text.isBlank c = false := by
  have hdigits (n : Nat) : ∀ c ∈ n.repr.toList, Text.isBlank c = false := by
    rw [Nat.repr_eq_ofList_toDigits, String.toList_ofList]
    exact fun c hc => Text.isBlank_of_isDigit (isDigit_of_mem_toDigits hc)
  cases value with
  | ofNat n => exact hdigits n
  | negSucc n =>
      show ∀ c ∈ ("-" ++ (n + 1).repr).toList, Text.isBlank c = false
      rw [String.toList_append, List.forall_mem_append]
      exact ⟨Text.noBlank_of_any (by decide), hdigits (n + 1)⟩

/-- A compact list stands between brackets. -/
theorem toList_compact_array (items : List Json) : (compact (.array items)).toList =
    '[' :: ([','].intercalate ((compactItems items).map String.toList) ++ [']']) := by
  simp [compact, String.toList_intercalate]

/-- A compact object stands between braces. -/
theorem toList_compact_object (fields : List (String × Json)) :
    (compact (.object fields)).toList =
      '{' :: ([','].intercalate ((compactFields fields).map String.toList) ++ ['}']) := by
  simp [compact, String.toList_intercalate]

/-- The compact text of a value is trimmed. -/
theorem Exact.isTrimmed_compact {value : Json} (h : value.Exact) :
    IsTrimmed (compact value).toList := by
  cases h with
  | null => exact Text.isTrimmed_of_noBlank (Text.noBlank_of_any (by decide))
  | bool value =>
      cases value <;> exact Text.isTrimmed_of_noBlank (Text.noBlank_of_any (by decide))
  | int _ _ => exact Text.isTrimmed_of_noBlank (noBlank_int _)
  | string value =>
      show IsTrimmed (quoted value).toList
      rw [toList_quoted]
      exact Text.isTrimmed_between (by decide) (by decide) _
  | array _ =>
      rw [toList_compact_array]
      exact Text.isTrimmed_between (by decide) (by decide) _
  | object _ _ =>
      rw [toList_compact_object]
      exact Text.isTrimmed_between (by decide) (by decide) _

/-- The escape of a character does not break the line. -/
theorem noFeed_escape (c : Char) : '\n' ∉ escape c := by
  rcases escape_cases c with ⟨e, -, he, hescape⟩ | ⟨hcontrol, hescape⟩ | ⟨hcontrol, -, -, hescape⟩
  · rw [hescape]
    intro hmem
    simp only [List.mem_cons, List.not_mem_nil, or_false] at hmem
    rcases hmem with hmem | rfl
    · exact absurd hmem (by decide)
    · -- No escape is spelled with a line feed.
      have hnone : simpleEscape? '\n' = none := by decide
      rw [hnone] at he
      cases he
  · have hdigit : ∀ n < 16, '\n' ≠ Nat.digitChar n := by decide
    rw [hescape]
    simp only [List.mem_cons, List.not_mem_nil, or_false, not_or]
    exact ⟨by decide, by decide, by decide, by decide, hdigit _ (by omega), hdigit _ (by omega)⟩
  · rw [hescape, List.mem_singleton]
    rintro rfl
    exact hcontrol (by decide)

/-- A string in quotes stands on one line. -/
theorem noFeed_quoted (s : String) : '\n' ∉ (quoted s).toList := by
  rw [toList_quoted]
  simp only [List.mem_cons, List.mem_append, List.mem_flatMap, List.not_mem_nil, or_false, not_or,
    not_exists, not_and]
  exact ⟨by decide, fun c _ => noFeed_escape c, by decide⟩

/-- Texts on one line stand on one line with commas between them. -/
theorem noFeed_intercalate {texts : List (List Char)} (h : ∀ text ∈ texts, '\n' ∉ text) :
    '\n' ∉ [','].intercalate texts := by
  cases texts with
  | nil => exact List.not_mem_nil
  | cons first rest =>
      obtain ⟨hfirst, hrest⟩ := List.forall_mem_cons.mp h
      rw [intercalate_comma, List.mem_append, List.mem_flatMap]
      rintro (hmem | ⟨text, htext, hmem⟩)
      · exact hfirst hmem
      · rcases List.mem_cons.mp hmem with hcomma | hmem
        · exact absurd hcomma (by decide)
        · exact hrest text htext hmem

/-- The compact texts of items are written one by one. -/
theorem compactItems_eq (items : List Json) : compactItems items = items.map compact := by
  induction items with
  | nil => rfl
  | cons item items ih => rw [compactItems, ih, List.map_cons]

/-- The compact texts of fields are written one by one. -/
theorem compactFields_eq (fields : List (String × Json)) : compactFields fields =
    fields.map fun field => quoted field.1 ++ ":" ++ compact field.2 := by
  induction fields with
  | nil => rfl
  | cons field fields ih => rw [compactFields, ih, List.map_cons]

/-- The compact text of a value stands on one line. -/
theorem Exact.noFeed_compact {value : Json} (h : value.Exact) : '\n' ∉ (compact value).toList := by
  induction h with
  | null => decide
  | bool value => cases value <;> decide
  | int _ _ =>
      intro hmem
      exact absurd (noBlank_int _ _ hmem) (by decide)
  | string value => exact noFeed_quoted value
  | @array items _ ih =>
      have hitems : '\n' ∉ [','].intercalate ((compactItems items).map String.toList) := by
        refine noFeed_intercalate fun text htext => ?_
        rw [compactItems_eq, List.map_map] at htext
        obtain ⟨item, hitem, rfl⟩ := List.mem_map.mp htext
        exact ih item hitem
      rw [toList_compact_array]
      simp [hitems]
  | @object fields _ _ ih =>
      have hfields : '\n' ∉ [','].intercalate ((compactFields fields).map String.toList) := by
        refine noFeed_intercalate fun text htext => ?_
        rw [compactFields_eq, List.map_map] at htext
        obtain ⟨field, hfield, rfl⟩ := List.mem_map.mp htext
        have hname := noFeed_quoted field.1
        have hvalue := ih field hfield
        simp [hname, hvalue]
      rw [toList_compact_object]
      simp [hfields]

end Json

/-! ## Defaults -/

namespace DocBlock

/-- In a setting, what a text gives is the default value of the comment. -/
theorem Setting.defaultValue_comment (setting : Setting defaultNames) {text : List Char}
    (htext : '\n' ∉ text) (htrim : IsTrimmed text) :
    (parse (setting.comment text)).defaultValue = defaultValue? text := by
  have hname := isTagName_of_mem (List.mem_append_right firesNames setting.mem_names)
  obtain ⟨lines, hparse, htags⟩ := setting.exists_tags hname htext
  rw [hparse, defaultValue_ofLines, htags, htrim.trim_eq_self]
  rfl

/-- A trimmed text that is read as a value gives this value. -/
theorem defaultValue?_of_parse {text : List Char} {value : Json} (htrim : IsTrimmed text)
    (h : Json.parse text = .ok value) : defaultValue? text = some value := by
  have hne : ¬text.isEmpty = true := by
    rw [List.isEmpty_iff]
    rintro rfl
    have hnothing : Json.parse [] = .error .endOfText := by
      show (Json.valueWithin Json.maxDepth [] >>= _) = _
      rw [Json.valueWithin]
      rfl
    rw [hnothing] at h
    cases h
  rw [defaultValue?, htrim.trim_eq_self, if_neg hne, h]

/-- The character around an unquoted text. -/
def singleQuote : Char := Char.ofNat 0x27

/-- A text between single quotes gives this text. -/
theorem defaultValue?_singleQuoted (s : List Char) :
    defaultValue? (singleQuote :: (s ++ [singleQuote])) = some (.string (String.ofList s)) := by
  have htrim : IsTrimmed (singleQuote :: (s ++ [singleQuote])) :=
    Text.isTrimmed_between (by decide) (by decide) s
  have hparse : Json.parse (singleQuote :: (s ++ [singleQuote])) = .error .malformed := by
    show (Json.valueWithin Json.maxDepth _ >>= _) = _
    rw [Json.valueWithin]
    rfl
  rw [defaultValue?, htrim.trim_eq_self, hparse, unquoted?]
  simp [singleQuote]

/-- **Default tags**: a value whose text says it exactly is the default of a comment that gives its
    compact text, the order of its fields included; and so is any text on one line between single
    quotes, even one that could be read as JSON. -/
theorem default_read_back :
    (∀ (setting : Setting defaultNames) (value : Json), value.Exact →
      value.levels ≤ Json.maxDepth →
        (parse (setting.comment (Json.compact value).toList)).defaultValue = some value) ∧
    ∀ (setting : Setting defaultNames) (s : String), '\n' ∉ s.toList →
      (parse (setting.comment (singleQuote :: (s.toList ++ [singleQuote])))).defaultValue =
        some (.string s) := by
  refine ⟨fun setting value hexact hlevels => ?_, fun setting s hs => ?_⟩
  · rw [setting.defaultValue_comment hexact.noFeed_compact hexact.isTrimmed_compact]
    exact defaultValue?_of_parse hexact.isTrimmed_compact (hexact.parse_compact hlevels)
  · have hquote : '\n' ≠ singleQuote := by decide
    have hfeed : '\n' ∉ singleQuote :: (s.toList ++ [singleQuote]) := by
      simp [hs, hquote]
    rw [setting.defaultValue_comment hfeed (Text.isTrimmed_between (by decide) (by decide) _),
      defaultValue?_singleQuoted, String.ofList_toList]

/-- An object with a list in it, and what looks like a number between quotes. -/
theorem starred_defaults_read_back :
    (parse "* @default \x7b\"b\":[-1,null],\"a\":\"x\"\x7d".toList).defaultValue =
        some (.object [("b", .array [.int (-1), .null]), ("a", .string "x")]) ∧
      (parse "* @default '1'".toList).defaultValue = some (.string "1") := by
  obtain ⟨hvalue, hquoted⟩ := default_read_back
  have hexact : Json.Exact (.object [("b", .array [.int (-1), .null]), ("a", .string "x")]) := by
    refine .object (by decide)
      (List.forall_mem_cons.mpr ⟨.array ?_, List.forall_mem_singleton.mpr ?_⟩)
    · exact List.forall_mem_cons.mpr
        ⟨.int (by decide) (by decide), List.forall_mem_singleton.mpr .null⟩
    · exact .string "x"
  have hname : "default" ∈ defaultNames := List.mem_cons_self
  have hobject : "* @default \x7b\"b\":[-1,null],\"a\":\"x\"\x7d".toList =
      ['*', ' ', '@'] ++ "default".toList ++ ' ' :: (Json.compact
        (.object [("b", .array [.int (-1), .null]), ("a", .string "x")])).toList := by decide
  have hnumber : "* @default '1'".toList = ['*', ' ', '@'] ++ "default".toList ++
      ' ' :: (singleQuote :: ("1".toList ++ [singleQuote])) := by decide
  rw [hobject, hnumber, ← Setting.comment_starred hname, ← Setting.comment_starred hname]
  exact ⟨hvalue (.starred hname) _ hexact (by decide), hquoted (.starred hname) "1" (by decide)⟩

end DocBlock

end ElementCatalog
