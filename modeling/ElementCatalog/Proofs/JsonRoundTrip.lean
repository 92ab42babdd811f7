import ElementCatalog.Json.Exactness
import ElementCatalog.Proofs.WrittenJson

/-!
# Values from their texts — what is written is read back as the same value

Toward: a value whose text says it exactly is read back from this text, laid out in any way, as long
as it does not nest deeper than the reader goes.  The route:

* the digits of a number are read back as the number (`fitting_eq`), which ends at what may follow a
  value (`numberRest_digits`);
* the fields of an object are collected under their names, which differ (`foldsFields_entries`);
* the rest is one induction on the value, for all depths at once (`Exact.reads`).
-/

namespace ElementCatalog.Json

/-! ## Numbers -/

/-- The digits of a number are digits. -/
theorem isDigit_of_mem_toDigits {n : Nat} {c : Char} (h : c ∈ Nat.toDigits 10 n) :
    Text.isDigit c = true := by
  have hdigit := Nat.isDigit_of_mem_toDigits (by decide) (by decide) h
  rw [Char.isDigit, Bool.and_eq_true, decide_eq_true_eq, decide_eq_true_eq] at hdigit
  rw [Text.isDigit, Bool.and_eq_true, decide_eq_true_eq, decide_eq_true_eq]
  exact hdigit

/-- Only zero starts with a zero. -/
theorem head?_toDigits_ne_zero {n : Nat} (h : n ≠ 0) : (Nat.toDigits 10 n).head? ≠ some '0' := by
  induction n using Nat.strongRecOn with
  | _ n ih =>
      by_cases hsmall : n < 10
      · have hdigit : ∀ d < 10, d ≠ 0 → [Nat.digitChar d].head? ≠ some '0' := by decide
        rw [Nat.toDigits_of_lt_base (Nat.lt_of_not_le (Nat.not_le_of_lt hsmall))]
        exact hdigit n hsmall h
      · rw [Nat.toDigits_of_base_le (by decide) (Nat.le_of_not_lt hsmall),
          List.head?_append_of_ne_nil _ Nat.toDigits_ne_nil]
        exact ih (n / 10) (by omega) (by omega)

/-- More digits do not make a number smaller. -/
theorem le_ofDigitChars (digits : List Char) (n : Nat) : n ≤ Nat.ofDigitChars 10 digits n := by
  rw [Nat.ofDigitChars_eq_ofDigitChars_zero]
  exact Nat.le_trans (Nat.le_mul_of_pos_left n (Nat.pow_pos (by decide))) (Nat.le_add_right _ _)

/-- The digits of a number of 64 bits all fit. -/
theorem fitting_eq (digits : List Char) : ∀ n, Nat.ofDigitChars 10 digits n ≤ maxWord →
    fitting n digits = (Nat.ofDigitChars 10 digits n, digits.length, 0) := by
  induction digits with
  | nil => exact fun n _ => rfl
  | cons d digits ih =>
      intro n hfits
      rw [Nat.ofDigitChars_cons] at hfits ⊢
      have hnext : 10 * n + (d.toNat - '0'.toNat) ≤ maxWord :=
        Nat.le_trans (le_ofDigitChars digits _) hfits
      rw [fitting]
      dsimp only
      rw [if_pos hnext, ih _ hfits, List.length_cons]

/-- What may follow a value continues no number. -/
theorem IsEnd.not_number {text : List Char} (h : IsEnd text) {c : Char} (hc : c ∈ text.head?) :
    Text.isDigit c = false ∧ c ≠ '.' ∧ c ≠ 'e' ∧ c ≠ 'E' := by
  have hend := h c hc
  simp only [isBlank, Bool.or_eq_true, beq_iff_eq] at hend
  rcases hend with ((rfl | rfl) | rfl) | (((rfl | rfl) | rfl) | rfl) <;> decide

/-- A zero is read back, up to what may follow a value. -/
theorem numberRest_zero {rest : List Char} (hrest : IsEnd rest) :
    numberRest false ('0' :: rest) = .ok (.int 0, rest) := by
  unfold numberRest
  cases rest with
  | nil => rfl
  | cons c more =>
      obtain ⟨hdigit, hpoint, he, hE⟩ := hrest.not_number (c := c) rfl
      simp [hdigit, hpoint, he, hE]

/-- A number has neither fraction nor exponent where a value ends. -/
theorem IsEnd.no_exponent {text : List Char} (h : IsEnd text) :
    (text.head? == some 'e' || text.head? == some 'E') = false := by
  refine Bool.eq_false_iff.mpr fun hletter => ?_
  rw [Bool.or_eq_true, beq_iff_eq, beq_iff_eq] at hletter
  rcases hletter with he | hE
  · exact absurd rfl (h.not_number (Option.mem_def.mpr he)).2.2.1
  · exact absurd rfl (h.not_number (Option.mem_def.mpr hE)).2.2.2

/-- The digits of a text go up to what may follow a value. -/
theorem span_digits {digits rest : List Char} (h : ∀ c ∈ digits, Text.isDigit c = true)
    (hrest : IsEnd rest) : (digits ++ rest).takeWhile Text.isDigit = digits ∧
      (digits ++ rest).dropWhile Text.isDigit = rest := by
  rw [List.takeWhile_append_of_pos h, List.dropWhile_append_of_pos h]
  cases rest with
  | nil => exact ⟨List.append_nil digits, rfl⟩
  | cons c more =>
      have hc : ¬Text.isDigit c = true := ne_true_of_eq_false (hrest.not_number rfl).1
      rw [List.takeWhile_cons_of_neg hc, List.append_nil]
      exact ⟨rfl, List.dropWhile_cons_of_neg hc⟩

/-- Digits that all fit are read back, up to what may follow a value. -/
theorem numberRest_fitting {d : Char} {more rest : List Char} {n : Nat} (hd : d ≠ '0')
    (hdigits : ∀ c ∈ d :: more, Text.isDigit c = true)
    (hfit : fitting 0 (d :: more) = (n, (d :: more).length, 0)) (hrest : IsEnd rest)
    {negative : Bool} (hsign : negative = true → n ≤ Nat.pow 2 63) :
    numberRest negative (d :: more ++ rest) =
      .ok (.int (if negative then -(n : Int) else n), rest) := by
  obtain ⟨htake, hdrop⟩ := span_digits hdigits hrest
  have hdigit : Text.isDigit d = true := hdigits d List.mem_cons_self
  rw [List.cons_append] at htake hdrop ⊢
  unfold numberRest
  split
  · contradiction
  · next heq => exact absurd (List.cons.inj heq).1 hd
  · next heq =>
      obtain ⟨rfl, rfl⟩ := List.cons.inj heq
      rw [htake, hdrop, hdigit, if_neg (by decide)]
      dsimp only
      rw [hfit]
      dsimp only
      split
      · next after => exact absurd rfl (hrest.not_number (c := '.') rfl).2.1
      · rw [Bool.or_assoc, hrest.no_exponent]
        show (if false = true then _ else _) = _
        rw [if_neg Bool.false_ne_true]
        cases negative with
        | false => rfl
        | true =>
            show (if n ≤ Nat.pow 2 63 then _ else _) = _
            rw [if_pos (hsign rfl)]
            rfl

/-- The digits of a number are read back, up to what may follow a value.  Zero has no sign. -/
theorem numberRest_digits {n : Nat} (hn : n ≤ maxWord) {negative : Bool}
    (hsign : negative = true → n ≠ 0 ∧ n ≤ Nat.pow 2 63) {rest : List Char} (hrest : IsEnd rest) :
    numberRest negative (Nat.toDigits 10 n ++ rest) =
      .ok (.int (if negative then -(n : Int) else n), rest) := by
  by_cases hzero : n = 0
  · subst hzero
    have hpositive : negative = false := Bool.eq_false_iff.mpr fun h => (hsign h).1 rfl
    rw [hpositive, Nat.toDigits_zero]
    exact numberRest_zero hrest
  · have hvalue : Nat.ofDigitChars 10 (Nat.toDigits 10 n) 0 = n := Nat.ofDigitChars_ten_toDigits
    have hfit := fitting_eq (Nat.toDigits 10 n) 0 (by rw [hvalue]; exact hn)
    have hdigits : ∀ c ∈ Nat.toDigits 10 n, Text.isDigit c = true :=
      fun c hc => isDigit_of_mem_toDigits hc
    have hhead := head?_toDigits_ne_zero hzero
    obtain ⟨d, more, hcons⟩ := List.exists_cons_of_ne_nil (Nat.toDigits_ne_nil (n := n) (b := 10))
    rw [hvalue] at hfit
    rw [hcons] at hfit hdigits hhead ⊢
    exact numberRest_fitting (fun heq => hhead (congrArg some heq)) hdigits hfit hrest
      fun h => (hsign h).2

/-! ## Values -/

/-- A minus sign starts a number. -/
theorem valueWithin_minus (depth : Nat) (rest : List Char) :
    valueWithin depth ('-' :: rest) = numberRest true rest := by
  cases depth <;> rfl

/-- A quote starts a string. -/
theorem valueWithin_quote (depth : Nat) (rest : List Char) :
    valueWithin depth (Char.ofNat 0x22 :: rest) =
      (stringRest rest).map fun (s, rest) => (.string s, rest) := by
  cases depth <;> rfl

/-- A bracket starts a list, whose items nest one level less. -/
theorem valueWithin_bracket (depth : Nat) (rest : List Char) :
    valueWithin (depth + 1) ('[' :: rest) =
      (items (valueWithin depth) (rest.length + 1) true rest >>= fun (values, rest) =>
        .ok (.array values, rest)) :=
  rfl

/-- The reader of the fields of an object. -/
def fieldWithin (depth : Nat) (state : List (String × Json)) (name : String) (text : List Char) :
    Except Fault (List (String × Json) × List Char) := do
  let (value, rest) ← valueWithin depth (← colon text)
  .ok (setField state name value, rest)

/-- A brace starts an object, whose fields nest one level less. -/
theorem valueWithin_brace (depth : Nat) (rest : List Char) :
    valueWithin (depth + 1) ('{' :: rest) =
      (fields (fieldWithin depth) (rest.length + 1) true [] rest >>= fun (values, rest) =>
        .ok (.object values, rest)) :=
  rfl

/-- Blanks before a value are dropped. -/
theorem valueWithin_append (depth : Nat) {before : List Char} (h : IsBlank before)
    (text : List Char) : valueWithin depth (before ++ text) = valueWithin depth text := by
  rw [valueWithin, skipBlanks_append h, ← valueWithin]

/-- A text that is no blank at its start is read behind any blanks if it is read without them. -/
theorem reads_of_isStart {depth : Nat} {text : List Char} {value : Json} (hstart : IsStart text)
    (h : ∀ rest, IsEnd rest → valueWithin depth (text ++ rest) = .ok (value, rest)) :
    Reads (valueWithin depth) text value := by
  refine ⟨hstart, fun before rest hbefore hrest => ?_⟩
  rw [List.append_assoc, valueWithin_append depth hbefore]
  exact h rest hrest

/-- A digit starts a value. -/
theorem isStart_digit {c : Char} (hc : Text.isDigit c = true) (more : List Char) :
    IsStart (c :: more) := by
  refine ⟨c, more, rfl, Bool.eq_false_iff.mpr fun h => ?_, ?_, ?_⟩
  · simp only [isBlank, Bool.or_eq_true, beq_iff_eq] at h
    rcases h with ((rfl | rfl) | rfl) | rfl <;> exact absurd hc (by decide)
  · rintro rfl
    exact absurd hc (by decide)
  · rintro rfl
    exact absurd hc (by decide)

/-- What starts with a digit is read as a number. -/
theorem valueWithin_digit (depth : Nat) {c : Char} (hc : Text.isDigit c = true)
    (more : List Char) : valueWithin depth (c :: more) = numberRest false (c :: more) := by
  have hquote : ¬(c.toNat == 0x22) = true := by
    intro h
    rw [eq_ofNat_of_toNat h] at hc
    exact absurd hc (by decide)
  have hskip := skipBlanks_of_isStart (isStart_digit hc more) []
  rw [List.append_nil] at hskip
  rw [valueWithin, hskip]
  split
  · contradiction
  -- No word, sign or bracket starts with a digit.
  all_goals
    next heq =>
      obtain ⟨rfl, rfl⟩ := List.cons.inj heq
      first
        | exact absurd hc (by decide)
        | rw [if_neg hquote, if_pos hc]

/-- A natural number that fits is read back. -/
theorem reads_natural {n : Nat} (h : n ≤ maxWord) (depth : Nat) :
    Reads (valueWithin depth) (compact (.int n)).toList (.int n) := by
  have htext : (compact (.int n)).toList = Nat.toDigits 10 n := by
    show n.repr.toList = _
    rw [Nat.repr_eq_ofList_toDigits, String.toList_ofList]
  have hread {rest : List Char} (hrest : IsEnd rest) :
      numberRest false (Nat.toDigits 10 n ++ rest) = .ok (.int n, rest) :=
    numberRest_digits h (fun hsign => absurd hsign Bool.false_ne_true) hrest
  obtain ⟨d, more, hdigits⟩ :=
    List.exists_cons_of_ne_nil (Nat.toDigits_ne_nil (n := n) (b := 10))
  have hd : Text.isDigit d = true :=
    isDigit_of_mem_toDigits (n := n) (hdigits ▸ List.mem_cons_self)
  rw [htext, hdigits]
  rw [hdigits] at hread
  refine reads_of_isStart (isStart_digit hd more) fun rest hrest => ?_
  rw [List.cons_append, valueWithin_digit depth hd]
  exact hread hrest

/-- A negative number that fits is read back. -/
theorem reads_negative {n : Nat} (h : n + 1 ≤ Nat.pow 2 63) (depth : Nat) :
    Reads (valueWithin depth) (compact (.int (Int.negSucc n))).toList (.int (Int.negSucc n)) := by
  have htext : (compact (.int (Int.negSucc n))).toList = '-' :: Nat.toDigits 10 (n + 1) := by
    show ("-" ++ (n + 1).repr).toList = _
    rw [Nat.repr_eq_ofList_toDigits, String.toList_append]
    simp
  have hfits : n + 1 ≤ maxWord := Nat.le_trans h (by decide)
  rw [htext]
  refine reads_of_isStart ⟨_, _, rfl, by decide, by decide, by decide⟩ fun rest hrest => ?_
  rw [List.cons_append, valueWithin_minus]
  exact numberRest_digits hfits (fun _ => ⟨Nat.succ_ne_zero n, h⟩) hrest

/-- A whole number of 64 bits is read back. -/
theorem reads_int {value : Int} (hlow : -(Nat.pow 2 63 : Nat) ≤ value)
    (hhigh : value < (Nat.pow 2 64 : Nat)) (depth : Nat) :
    Reads (valueWithin depth) (compact (.int value)).toList (.int value) := by
  cases value with
  | ofNat n => exact reads_natural (Nat.le_sub_one_of_lt (Int.ofNat_lt.mp hhigh)) depth
  | negSucc n =>
      rw [Int.negSucc_eq, Int.neg_le_neg_iff] at hlow
      exact reads_negative (Int.ofNat_le.mp hlow) depth

/-- A truth value is read back. -/
theorem reads_flag (value : Bool) (depth : Nat) :
    Reads (valueWithin depth) (compact (.bool value)).toList (.bool value) := by
  cases value with
  | true =>
      refine reads_of_isStart ⟨_, _, rfl, by decide, by decide, by decide⟩ fun rest _ => ?_
      cases depth <;> rfl
  | false =>
      refine reads_of_isStart ⟨_, _, rfl, by decide, by decide, by decide⟩ fun rest _ => ?_
      cases depth <;> rfl

/-- A string is read back as a value. -/
theorem reads_string (value : String) (depth : Nat) :
    Reads (valueWithin depth) (quoted value).toList (.string value) := by
  rw [toList_quoted]
  refine reads_of_isStart ⟨_, _, rfl, by decide, by decide, by decide⟩ fun rest _ => ?_
  rw [List.cons_append, List.append_assoc, List.singleton_append, valueWithin_quote,
    stringRest_escape]
  rfl

/-- A list is read back one level deeper than its items. -/
theorem reads_array {l : Layout} {level depth : Nat} {items : List Json}
    (h : ∀ item ∈ items, Reads (valueWithin depth) (l.write (level + 1) item) item) :
    Reads (valueWithin (depth + 1)) (l.write level (.array items)) (.array items) := by
  obtain ⟨close, hclose, htext⟩ := write_array l level items
  have hitems : List.Forall₂ (Reads (valueWithin depth)) (items.map (l.write (level + 1))) items :=
    List.forall₂_map_left_iff.mpr (List.forall₂_same.mpr h)
  rw [htext]
  refine reads_of_isStart ⟨_, _, rfl, by decide, by decide, by decide⟩ fun rest _ => ?_
  have hread := items_intercalate rest (l.isBlank_lineBreak (level + 1)) hclose hitems
  rw [List.cons_append, List.append_assoc, List.append_assoc, List.singleton_append,
    valueWithin_bracket, hread]
  rfl

/-- A new name goes to the end. -/
theorem setField_of_notMem {before : List (String × Json)} {name : String}
    (h : name ∉ before.map Prod.fst) (value : Json) :
    setField before name value = before ++ [(name, value)] := by
  induction before with
  | nil => rfl
  | cons field before ih =>
      rw [List.map_cons, List.mem_cons, not_or] at h
      rw [setField, if_neg (Ne.symm h.1), ih h.2]
      rfl

/-- Fields of different names are collected in their order. -/
theorem foldsFields_entries {l : Layout} {level depth : Nat} {entries : List (String × Json)}
    (hreads : ∀ field ∈ entries, Reads (valueWithin depth) (l.write level field.2) field.2)
    (before : List (String × Json)) (hnames : ((before ++ entries).map Prod.fst).Nodup) :
    FoldsFields l level (fieldWithin depth) before entries (before ++ entries) := by
  induction entries generalizing before with
  | nil =>
      rw [List.append_nil]
      exact .nil before
  | cons field entries ih =>
      obtain ⟨name, value⟩ := field
      have hnew : name ∉ before.map Prod.fst := by
        rw [List.map_append, List.map_cons] at hnames
        exact fun h => (List.nodup_append.mp hnames).2.2 name h name List.mem_cons_self rfl
      have hmore := ih (fun field hfield => hreads field (List.mem_cons_of_mem _ hfield))
        (before ++ [(name, value)]) (by rwa [List.append_assoc, List.singleton_append])
      rw [List.append_assoc, List.singleton_append] at hmore
      refine .cons (fun rest hrest => ?_) hmore
      have hread := (hreads (name, value) List.mem_cons_self).read_eq l.gap rest l.isBlank_gap hrest
      show (valueWithin depth (l.gap ++ l.write level value ++ rest) >>= _) = _
      rw [hread, ← setField_of_notMem hnew]
      rfl

/-- An object is read back one level deeper than its fields. -/
theorem reads_object {l : Layout} {level depth : Nat} {entries : List (String × Json)}
    (h : ∀ field ∈ entries, Reads (valueWithin depth) (l.write (level + 1) field.2) field.2)
    (hnames : (entries.map Prod.fst).Nodup) :
    Reads (valueWithin (depth + 1)) (l.write level (.object entries)) (.object entries) := by
  obtain ⟨close, hclose, htext⟩ := write_object l level entries
  rw [htext]
  refine reads_of_isStart ⟨_, _, rfl, by decide, by decide, by decide⟩ fun rest _ => ?_
  have hread := fields_intercalate rest hclose (foldsFields_entries h [] hnames)
  rw [List.cons_append, List.append_assoc, List.append_assoc, List.singleton_append,
    valueWithin_brace, hread]
  rfl

/-- **Round trip**: a value that its text says exactly is read back from this text, in any layout, by
    a reader that goes as deep as the value nests. -/
theorem Exact.reads {value : Json} (h : value.Exact) (l : Layout) :
    ∀ depth level, value.levels ≤ depth →
      Reads (valueWithin depth) (l.write level value) value := by
  induction h with
  | null =>
      intro depth level _
      refine reads_of_isStart ⟨_, _, rfl, by decide, by decide, by decide⟩ fun rest _ => ?_
      cases depth <;> rfl
  | bool value => exact fun depth level _ => reads_flag value depth
  | int hlow hhigh => exact fun depth level _ => reads_int hlow hhigh depth
  | string value => exact fun depth level _ => reads_string value depth
  | array _ ih =>
      intro depth level hlevels
      rw [levels] at hlevels
      obtain ⟨depth, rfl⟩ := Nat.exists_eq_succ_of_ne_zero (Nat.ne_zero_of_lt hlevels)
      exact reads_array fun item hitem => ih item hitem depth (level + 1)
        (Nat.le_trans (levels_le_itemLevels hitem) (Nat.le_of_succ_le_succ hlevels))
  | object hnames _ ih =>
      intro depth level hlevels
      rw [levels] at hlevels
      obtain ⟨depth, rfl⟩ := Nat.exists_eq_succ_of_ne_zero (Nat.ne_zero_of_lt hlevels)
      refine reads_object (fun field hfield => ih field hfield depth (level + 1) ?_) hnames
      exact Nat.le_trans (levels_le_fieldLevels hfield) (Nat.le_of_succ_le_succ hlevels)

/-- The compact text of a value that it says exactly is read as this value. -/
theorem Exact.parse_compact {value : Json} (h : value.Exact) (hlevels : value.levels ≤ maxDepth) :
    parse (compact value).toList = .ok value := by
  have hread := (h.reads Layout.tight maxDepth 0 hlevels).read_eq [] [] isBlank_nil isEnd_nil
  rw [write_tight, List.nil_append, List.append_nil] at hread
  rw [parse, hread]
  rfl

end ElementCatalog.Json
