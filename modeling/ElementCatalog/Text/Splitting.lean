import ElementCatalog.Text.Pieces
import Mathlib.Data.String.Basic

/-!
# Splitting — texts cut at one character

The pieces of a text between the occurrences of a one-character separator are the pieces that the
cuts at this character leave of its list of characters.  The text is read by positions in bytes; the
induction is on the characters that are still to be read, with the characters before the current
piece and those of the piece itself to the left.
-/

namespace ElementCatalog

open String

namespace Text

/-- Cuts leave at least one piece. -/
theorem splitWhere_ne_nil (p : Char → Bool) (s : List Char) : splitWhere p s ≠ [] := by
  cases s with
  | nil => exact List.cons_ne_nil _ _
  | cons c rest =>
      rw [splitWhere]
      split
      · exact List.cons_ne_nil _ _
      · split <;> exact List.cons_ne_nil _ _

/-- A character that does not cut belongs to the first piece. -/
theorem splitWhere_cons_of_false {p : Char → Bool} {c : Char} (h : p c = false)
    (rest : List Char) : splitWhere p (c :: rest) = (splitWhere p rest).modifyHead (c :: ·) := by
  rw [splitWhere, if_neg (by rw [h]; exact Bool.false_ne_true)]
  cases hrest : splitWhere p rest with
  | nil => exact absurd hrest (splitWhere_ne_nil p rest)
  | cons piece pieces => rfl

/-- The pieces are made of characters of the text that do not cut. -/
theorem of_mem_splitWhere {p : Char → Bool} {s : List Char} :
    ∀ piece ∈ splitWhere p s, ∀ c ∈ piece, p c = false ∧ c ∈ s := by
  induction s with
  | nil =>
      intro piece hpiece c hc
      rw [List.mem_singleton.mp hpiece] at hc
      cases hc
  | cons first rest ih =>
      have hrest : ∀ piece ∈ splitWhere p rest, ∀ c ∈ piece, p c = false ∧ c ∈ first :: rest :=
        fun piece hpiece c hc => (ih piece hpiece c hc).imp_right (List.mem_cons_of_mem first)
      by_cases hfirst : p first = true
      · rw [splitWhere, if_pos hfirst]
        exact List.forall_mem_cons.mpr ⟨fun c hc => absurd hc List.not_mem_nil, hrest⟩
      · rw [splitWhere_cons_of_false (Bool.not_eq_true _ ▸ hfirst)]
        cases hpieces : splitWhere p rest with
        | nil => exact absurd hpieces (splitWhere_ne_nil p rest)
        | cons head tail =>
            rw [hpieces] at hrest
            obtain ⟨hhead, htail⟩ := List.forall_mem_cons.mp hrest
            refine List.forall_mem_cons.mpr ⟨List.forall_mem_cons.mpr ⟨?_, hhead⟩, htail⟩
            exact ⟨Bool.not_eq_true _ ▸ hfirst, List.mem_cons_self⟩

/-! ## Positions -/

section Positions

variable (before piece rest : List Char) (c : Char)

/-- A text is at its end where no characters are left. -/
theorem atEnd_after : Pos.Raw.atEnd (ofList (before ++ piece ++ rest))
    ⟨utf8Len before + utf8Len piece⟩ = true ↔ rest = [] := by
  have h := atEnd_of_valid (before ++ piece) rest
  rwa [utf8Len_append] at h

/-- The character at a place is the first one that is left. -/
theorem get_after : Pos.Raw.get (ofList (before ++ piece ++ c :: rest))
    ⟨utf8Len before + utf8Len piece⟩ = c := by
  have h := get_of_valid (before ++ piece) (c :: rest)
  rwa [utf8Len_append] at h

/-- The next place is as many bytes further as the character at this one has. -/
theorem next_after : Pos.Raw.next (ofList (before ++ piece ++ c :: rest))
    ⟨utf8Len before + utf8Len piece⟩ = ⟨utf8Len before + utf8Len piece + c.utf8Size⟩ := by
  have h := next_of_valid (before ++ piece) c rest
  rwa [utf8Len_append] at h

/-- A text of one character is at its end after this character. -/
theorem atEnd_next_singleton :
    Pos.Raw.atEnd (singleton c) (Pos.Raw.next (singleton c) 0) = true := by
  have hnext := next_after [] [] [] c
  have hend := (atEnd_after [] [c] []).mpr rfl
  simp only [utf8Len_nil, utf8Len_cons, Nat.zero_add, Nat.add_zero] at hnext hend
  exact (congrArg (Pos.Raw.atEnd (singleton c)) hnext).trans hend

/-- The place before the character that has just been read. -/
theorem unoffsetBy_next_singleton (n : Nat) : (⟨n + c.utf8Size⟩ : Pos.Raw).unoffsetBy
    (Pos.Raw.next (singleton c) 0) = ⟨n⟩ := by
  have hnext := next_after [] [] [] c
  simp only [utf8Len_nil, Nat.zero_add] at hnext
  exact (congrArg (Pos.Raw.unoffsetBy _) hnext).trans (congrArg Pos.Raw.mk (Nat.add_sub_cancel n _))

end Positions

/-! ## Pieces -/

/-- Reading on from a place where `piece` has been read since the last separator. -/
theorem splitOnAux_singleton (separator : Char) (before piece rest : List Char)
    (found : List String) :
    splitOnAux (ofList (before ++ piece ++ rest)) (singleton separator) ⟨utf8Len before⟩
        ⟨utf8Len before + utf8Len piece⟩ 0 found =
      found.reverse ++
        ((splitWhere (· == separator) rest).modifyHead (piece ++ ·)).map ofList := by
  induction rest generalizing before piece found with
  | nil =>
      rw [splitOnAux, if_pos ((atEnd_after before piece []).mpr rfl)]
      dsimp only
      rw [extract_of_valid]
      simp [splitWhere]
  | cons first rest ih =>
      have hend := (atEnd_after before piece (first :: rest)).not.mpr (List.cons_ne_nil _ _)
      have hseparator : Pos.Raw.get (singleton separator) 0 = separator :=
        get_after [] [] [] separator
      rw [splitOnAux, if_neg hend, get_after, hseparator]
      by_cases hfirst : first = separator
      · -- The piece ends here, and the next one starts behind the separator.
        subst hfirst
        have hrest := ih (before ++ piece ++ [first]) [] (ofList piece :: found)
        simp only [utf8Len_append, utf8Len_cons, utf8Len_nil, Nat.zero_add, Nat.add_zero,
          List.append_assoc, List.nil_append, List.cons_append] at hrest
        rw [if_pos (beq_self_eq_true first)]
        dsimp only
        rw [next_after, if_pos (atEnd_next_singleton first), unoffsetBy_next_singleton,
          extract_of_valid]
        simp only [List.append_assoc, Nat.add_assoc]
        have hall : (splitWhere (· == first) rest).modifyHead (fun piece => piece) =
            splitWhere (· == first) rest := congrFun List.modifyHead_id _
        rw [hrest, hall]
        simp [splitWhere]
      · -- The character belongs to the piece.
        have hcut := splitWhere_cons_of_false (p := (· == separator))
          (beq_eq_false_iff_ne.mpr hfirst) rest
        have hrest := ih before (piece ++ [first]) found
        simp only [utf8Len_append, utf8Len_cons, utf8Len_nil, Nat.zero_add,
          List.append_assoc, List.nil_append, List.cons_append] at hrest
        have hback : (⟨utf8Len before + utf8Len piece⟩ : Pos.Raw).unoffsetBy 0 =
            ⟨utf8Len before + utf8Len piece⟩ := rfl
        rw [if_neg (by simpa using hfirst), hback, next_after]
        simp only [List.append_assoc, Nat.add_assoc]
        rw [hrest, hcut, List.modifyHead_modifyHead]
        rfl

/-- The pieces between the occurrences of a character. -/
theorem splitOn_singleton (text : String) (separator : Char) :
    text.splitOn (singleton separator) =
      (splitWhere (· == separator) text.toList).map ofList := by
  have hall : (splitWhere (· == separator) text.toList).modifyHead ([] ++ ·) =
      splitWhere (· == separator) text.toList := congrFun List.modifyHead_id _
  have h := splitOnAux_singleton separator [] [] text.toList []
  rw [hall] at h
  rw [splitOn, if_neg (by simp)]
  simpa using h

/-- Cuts at a character are the library's splitting of a list at it. -/
theorem splitWhere_eq_splitOn (separator : Char) (s : List Char) :
    splitWhere (· == separator) s = s.splitOn separator := by
  induction s with
  | nil => rfl
  | cons c rest ih =>
      rw [List.splitOn_cons_eq_if_modifyHead, ← ih]
      by_cases hc : (c == separator) = true
      · rw [splitWhere, if_pos hc, if_pos hc]
      · rw [if_neg hc]
        exact splitWhere_cons_of_false (Bool.not_eq_true _ ▸ hc) rest

/-- The pieces between slashes. -/
theorem splitOn_slash (text : String) :
    text.splitOn "/" = (splitWhere (· == '/') text.toList).map ofList :=
  splitOn_singleton text '/'

/-- The pieces between dots. -/
theorem splitOn_dot (text : String) :
    text.splitOn "." = (splitWhere (· == '.') text.toList).map ofList :=
  splitOn_singleton text '.'

/-- The pieces between the occurrences of a character make the text again, with the character between
    them. -/
theorem intercalate_splitOn_singleton (text : String) (separator : Char) :
    (singleton separator).intercalate (text.splitOn (singleton separator)) = text := by
  refine String.toList_inj.mp ?_
  rw [splitOn_singleton, splitWhere_eq_splitOn, String.toList_intercalate, List.map_map]
  have hlists : (text.toList.splitOn separator).map (String.toList ∘ ofList) =
      text.toList.splitOn separator := by
    simp
  rw [hlists, String.toList_singleton]
  exact List.intercalate_splitOn separator

/-- The pieces between dots make the text again, with dots between them. -/
theorem intercalate_splitOn_dot (text : String) : ".".intercalate (text.splitOn ".") = text :=
  intercalate_splitOn_singleton text '.'

/-- The pieces between slashes make the text again, with slashes between them. -/
theorem intercalate_splitOn_slash (text : String) : "/".intercalate (text.splitOn "/") = text :=
  intercalate_splitOn_singleton text '/'

/-- Pieces without slashes are found again in their text. -/
theorem splitOn_slash_intercalate {pieces : List String} (hne : pieces ≠ [])
    (h : ∀ piece ∈ pieces, '/' ∉ piece.toList) :
    ("/".intercalate pieces).splitOn "/" = pieces := by
  have hlists : ∀ l ∈ pieces.map String.toList, '/' ∉ l := by
    intro l hl
    obtain ⟨piece, hpiece, rfl⟩ := List.mem_map.mp hl
    exact h piece hpiece
  have hpieces : (['/'].intercalate (pieces.map String.toList)).splitOn '/' =
      pieces.map String.toList :=
    List.splitOn_intercalate '/' hlists (by simpa using hne)
  rw [splitOn_slash, splitWhere_eq_splitOn, String.toList_intercalate]
  have htext : (("/" : String).toList.intercalate (pieces.map String.toList)).splitOn '/' =
      pieces.map String.toList := hpieces
  rw [htext, List.map_map]
  simp

/-- The pieces of a text hold no slash. -/
theorem slash_notMem_of_mem_splitOn {text piece : String} (h : piece ∈ text.splitOn "/") :
    '/' ∉ piece.toList := by
  rw [splitOn_slash] at h
  obtain ⟨characters, hcharacters, rfl⟩ := List.mem_map.mp h
  rw [String.toList_ofList]
  intro hslash
  have hcut := (of_mem_splitWhere characters hcharacters '/' hslash).1
  rw [beq_self_eq_true] at hcut
  cases hcut

/-- A separator between two texts separates their pieces. -/
theorem splitOn_singleton_append (a b : String) (separator : Char) :
    (a ++ singleton separator ++ b).splitOn (singleton separator) =
      a.splitOn (singleton separator) ++ b.splitOn (singleton separator) := by
  have hmiddle : (a ++ singleton separator ++ b).toList = a.toList ++ separator :: b.toList := by
    simp
  rw [splitOn_singleton, splitOn_singleton, splitOn_singleton, splitWhere_eq_splitOn,
    splitWhere_eq_splitOn, splitWhere_eq_splitOn, hmiddle, List.splitOn_append_cons_self,
    List.map_append]

/-- A slash between two texts separates their pieces. -/
theorem splitOn_slash_append (a b : String) :
    (a ++ "/" ++ b).splitOn "/" = a.splitOn "/" ++ b.splitOn "/" :=
  splitOn_singleton_append a b '/'

/-- A dot between two texts separates their pieces. -/
theorem splitOn_dot_append (a b : String) :
    (a ++ "." ++ b).splitOn "." = a.splitOn "." ++ b.splitOn "." :=
  splitOn_singleton_append a b '.'

/-! ## Ends -/

/-- A text ends in another one exactly if it is something in front of it. -/
theorem endsWith_iff {text ending : String} :
    text.endsWith ending = true ↔ ∃ front, text = front ++ ending := by
  have hends : text.endsWith ending = true ↔ ending.toList <:+ text.toSlice.copy.toList :=
    String.Slice.endsWith_string_iff
  rw [hends, String.copy_toSlice]
  constructor
  · rintro ⟨front, hfront⟩
    refine ⟨ofList front, String.toList_inj.mp ?_⟩
    rw [String.toList_append, String.toList_ofList, hfront]
  · rintro ⟨front, rfl⟩
    exact ⟨front.toList, String.toList_append.symm⟩

end Text

end ElementCatalog
