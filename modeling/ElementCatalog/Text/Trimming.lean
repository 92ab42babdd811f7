import ElementCatalog.Text.Pieces
import Mathlib.Data.List.DropRight

/-!
# Trimming — texts without the blanks around them

A text is blanks, what is left when it is trimmed, and blanks again. What is left neither starts nor
ends with a blank, and this fixes it: the blanks around a text never matter to its trimmed form.
-/

namespace ElementCatalog.Text

/-- Only blank characters. -/
def AllBlank (s : List Char) : Prop :=
  ∀ c ∈ s, isBlank c = true

instance (s : List Char) : Decidable (AllBlank s) :=
  List.decidableBAll _ s

/-- A text neither starts nor ends with a blank. -/
structure IsTrimmed (s : List Char) : Prop where
  head : ∀ c ∈ s.head?, isBlank c = false
  last : ∀ c ∈ s.getLast?, isBlank c = false

/-- The empty text is blank. -/
theorem allBlank_nil : AllBlank [] :=
  List.forall_mem_nil _

/-- A text in which no blank is found has none. -/
theorem noBlank_of_any {s : List Char} (h : s.any isBlank = false) : ∀ c ∈ s, isBlank c = false :=
  fun c hc => Bool.eq_false_iff.mpr (List.any_eq_false.mp h c hc)

/-- Blanks after blanks are blanks. -/
theorem AllBlank.append {a b : List Char} (ha : AllBlank a) (hb : AllBlank b) :
    AllBlank (a ++ b) :=
  List.forall_mem_append.mpr ⟨ha, hb⟩

/-- A blank text has no first character that is not blank. -/
theorem trimStart_eq_nil_iff {s : List Char} : trimStart s = [] ↔ AllBlank s :=
  List.dropWhile_eq_nil_iff

/-- Blanks in front are dropped. -/
theorem trimStart_append {a : List Char} (ha : AllBlank a) (s : List Char) :
    trimStart (a ++ s) = trimStart s :=
  List.dropWhile_append_of_pos ha

/-- A text that starts with no blank keeps its start. -/
theorem trimStart_eq_self {s : List Char} (h : ∀ c ∈ s.head?, isBlank c = false) :
    trimStart s = s := by
  cases s with
  | nil => rfl
  | cons c rest => exact List.dropWhile_cons_of_neg (ne_true_of_eq_false (h c rfl))

/-- What is left starts with no blank. -/
theorem isBlank_head_trimStart (s : List Char) :
    ∀ c ∈ (trimStart s).head?, isBlank c = false := by
  intro c hc
  rw [trimStart] at hc
  have hnot := List.head?_dropWhile_not isBlank s
  rw [Option.mem_def.mp hc] at hnot
  exact hnot

/-- Blanks at the end are dropped from the end of the reversed text. -/
theorem trimEnd_eq_reverse (s : List Char) : trimEnd s = (trimStart s.reverse).reverse :=
  rfl

/-- Between blanks, a trimmed text is what is left. -/
theorem trim_eq {a t b : List Char} (ha : AllBlank a) (hb : AllBlank b) (ht : IsTrimmed t) :
    trim (a ++ t ++ b) = t := by
  have hreverse : AllBlank b.reverse := fun c hc => hb c (List.mem_reverse.mp hc)
  rw [trim, List.append_assoc, trimStart_append ha, trimEnd_eq_reverse]
  cases t with
  | nil =>
      -- Nothing but blanks: all of them go with the ones in front.
      rw [List.nil_append, trimStart_eq_nil_iff.mpr hb]
      rfl
  | cons c rest =>
      have hhead : ∀ d ∈ (c :: rest ++ b).head?, isBlank d = false := ht.head
      have hlast : ∀ d ∈ (c :: rest).reverse.head?, isBlank d = false := by
        rw [List.head?_reverse]
        exact ht.last
      rw [trimStart_eq_self hhead, List.reverse_append, trimStart_append hreverse,
        trimStart_eq_self hlast, List.reverse_reverse]

/-- Trimming the end takes blanks away. -/
theorem exists_trimEnd (s : List Char) : ∃ b, AllBlank b ∧ s = trimEnd s ++ b := by
  refine ⟨(s.reverse.takeWhile isBlank).reverse,
    fun c hc => List.mem_takeWhile_imp (List.mem_reverse.mp hc), ?_⟩
  rw [trimEnd, ← List.reverse_append, List.takeWhile_append_dropWhile, List.reverse_reverse]

/-- A text is what is left of it between blanks. -/
theorem exists_trim (s : List Char) :
    ∃ a b, AllBlank a ∧ AllBlank b ∧ IsTrimmed (trim s) ∧ s = a ++ trim s ++ b := by
  -- The blanks in front go first, and those at the end of what is left then.
  have hfront : s = s.takeWhile isBlank ++ trimStart s := List.takeWhile_append_dropWhile.symm
  obtain ⟨b, hb, hback⟩ := exists_trimEnd (trimStart s)
  refine ⟨s.takeWhile isBlank, b, fun c hc => List.mem_takeWhile_imp hc, hb, ⟨?_, ?_⟩, ?_⟩
  · intro c hc
    refine isBlank_head_trimStart s c ?_
    rw [hback, List.head?_append, show (trimEnd (trimStart s)).head? = some c from hc]
    rfl
  · rw [trim, trimEnd_eq_reverse, List.getLast?_reverse]
    exact isBlank_head_trimStart (trimStart s).reverse
  · rw [trim, List.append_assoc, ← hback]
    exact hfront

/-- What is left is trimmed. -/
theorem isTrimmed_trim (s : List Char) : IsTrimmed (trim s) := by
  obtain ⟨_, _, _, _, htrim, _⟩ := exists_trim s
  exact htrim

/-- Blanks around a text do not matter. -/
theorem trim_around {a b : List Char} (ha : AllBlank a) (hb : AllBlank b) (s : List Char) :
    trim (a ++ s ++ b) = trim s := by
  obtain ⟨front, back, hfront, hback, htrim, hs⟩ := exists_trim s
  have hall : a ++ s ++ b = (a ++ front) ++ trim s ++ (back ++ b) := by
    conv_lhs => rw [hs]
    simp only [List.append_assoc]
  rw [hall]
  exact trim_eq (ha.append hfront) (hback.append hb) htrim

/-- Blanks in front of a text do not matter. -/
theorem trim_append_left {a : List Char} (ha : AllBlank a) (s : List Char) :
    trim (a ++ s) = trim s := by
  have h := trim_around ha allBlank_nil s
  rwa [List.append_nil] at h

/-- Blanks after a text do not matter. -/
theorem trim_append_right {b : List Char} (hb : AllBlank b) (s : List Char) :
    trim (s ++ b) = trim s :=
  trim_around allBlank_nil hb s

/-- A text that starts with no blank loses only blanks at its end. -/
theorem exists_trim_append {s : List Char} (h : ∀ c ∈ s.head?, isBlank c = false) :
    ∃ b, AllBlank b ∧ s = trim s ++ b := by
  obtain ⟨a, b, ha, hb, -, hs⟩ := exists_trim s
  cases a with
  | nil => exact ⟨b, hb, hs⟩
  | cons c rest =>
      rw [hs] at h
      exact absurd (ha c List.mem_cons_self) (ne_true_of_eq_false (h c rfl))

/-- A text that starts with no blank keeps its first character. -/
theorem trim_cons {c : Char} (hc : isBlank c = false) (s : List Char) :
    ∃ t, trim (c :: s) = c :: t ∧ trim t = trim s := by
  obtain ⟨b, hb, hs⟩ := exists_trim_append (s := c :: s) fun d hd => by cases hd; exact hc
  cases htrim : trim (c :: s) with
  | nil =>
      -- Then the text would be nothing but blanks.
      rw [htrim, List.nil_append] at hs
      exact absurd (hb c (hs ▸ List.mem_cons_self)) (ne_true_of_eq_false hc)
  | cons d t =>
      rw [htrim] at hs
      obtain ⟨rfl, rfl⟩ := List.cons.inj hs
      exact ⟨t, rfl, (trim_append_right hb t).symm⟩

/-- A trimmed text stays as it is. -/
theorem IsTrimmed.trim_eq_self {s : List Char} (h : IsTrimmed s) : trim s = s := by
  have heq := trim_eq allBlank_nil allBlank_nil h
  rwa [List.nil_append, List.append_nil] at heq

/-- Trimming twice is trimming once. -/
theorem trim_trim (s : List Char) : trim (trim s) = trim s :=
  (isTrimmed_trim s).trim_eq_self

/-- A trimmed text behind one that starts with no blank ends a trimmed text. -/
theorem IsTrimmed.cons_append {c : Char} (hc : isBlank c = false) (front : List Char)
    {t : List Char} (ht : IsTrimmed t) (hne : t ≠ []) : IsTrimmed (c :: front ++ t) := by
  refine ⟨fun d hd => ?_, fun d hd => ?_⟩
  · cases hd
    exact hc
  · rw [List.getLast?_append_of_ne_nil _ hne] at hd
    exact ht.last d hd

/-- Trimming the start first changes nothing. -/
theorem trim_trimStart (s : List Char) : trim (trimStart s) = trim s := by
  rw [trim, trimStart_eq_self (isBlank_head_trimStart s)]
  rfl

/-- A text without blanks keeps its place when what follows it is trimmed at the end. -/
theorem trim_append_of_noBlank {front : List Char} (h : ∀ c ∈ front, isBlank c = false)
    (hne : front ≠ []) (s : List Char) : trim (front ++ s) = front ++ trimEnd s := by
  have hstart : ∀ c ∈ (front ++ s).head?, isBlank c = false := by
    intro c hc
    rw [List.head?_append_of_ne_nil _ hne] at hc
    exact h c (List.mem_of_mem_head? hc)
  have hfront : front.reverse.dropWhile isBlank = front.reverse :=
    trimStart_eq_self fun c hc => h c (List.mem_reverse.mp (List.mem_of_mem_head? hc))
  rw [trim, trimStart_eq_self hstart, trimEnd, trimEnd, List.reverse_append, List.dropWhile_append,
    hfront]
  split
  · next hnil =>
      rw [List.isEmpty_iff.mp hnil, List.reverse_reverse, List.reverse_nil, List.append_nil]
  · rw [List.reverse_append, List.reverse_reverse]

/-- Trimming keeps the number of times that a character occurs which is not blank. -/
theorem count_trim {c : Char} (hc : isBlank c = false) (s : List Char) :
    (trim s).count c = s.count c := by
  obtain ⟨a, b, ha, hb, -, hs⟩ := exists_trim s
  have hnone {blanks : List Char} (h : AllBlank blanks) : blanks.count c = 0 :=
    List.count_eq_zero.mpr fun hmem => ne_true_of_eq_false hc (h c hmem)
  conv_rhs => rw [hs]
  rw [List.count_append, List.count_append, hnone ha, hnone hb, Nat.zero_add, Nat.add_zero]

/-- So does trimming the start alone. -/
theorem count_trimStart {c : Char} (hc : isBlank c = false) (s : List Char) :
    (trimStart s).count c = s.count c := by
  rw [← count_trim hc, trim_trimStart, count_trim hc]

end ElementCatalog.Text
