import ElementCatalog.Proofs.ObjectProperties
import Mathlib.Data.List.Induction

/-!
# Writes of dictionaries — names in order of first writing, and writing one into another

A dictionary is made by writes.  Toward: its names stand in the order in which they were written
first, and writing dictionaries into each other is associative.  The route:

* a name that is written again keeps its place, so the names in order are the written ones without
  repetitions (`names_setAll`);
* a later value may be written at once where the earlier one was: the writes in between are of other
  names, and do not notice (`set_set_self`, `set_setAll`).
-/

namespace ElementCatalog

/-- One element more is new at the end, or it occurred before. -/
theorem eraseDups_concat {α : Type} [DecidableEq α] (l : List α) (a : α) :
    (l ++ [a]).eraseDups = if a ∈ l then l.eraseDups else l.eraseDups ++ [a] := by
  rw [List.eraseDups_append]
  by_cases h : a ∈ l
  · rw [if_pos h]
    simp [List.removeAll, h]
  · rw [if_neg h]
    simp [List.removeAll, h, List.eraseDups_cons]

namespace Dictionary

variable {α : Type} {entries more : Dictionary α} {name other : String}

/-- The names after a write: a name that is there keeps its place. -/
theorem names_set (entries : Dictionary α) (name : String) (value : α) :
    names (set entries name value) =
      if name ∈ names entries then names entries else names entries ++ [name] := by
  induction entries with
  | nil => rfl
  | cons entry rest ih =>
      obtain ⟨n, v⟩ := entry
      have hcons : names ((n, v) :: rest) = n :: names rest := rfl
      rw [set, hcons]
      by_cases hn : n = name
      · rw [if_pos hn, if_pos (hn ▸ List.mem_cons_self)]
        rfl
      · have hmem : name ∈ n :: names rest ↔ name ∈ names rest :=
          List.mem_cons.trans (or_iff_right (Ne.symm hn))
        rw [if_neg hn, if_congr hmem rfl rfl]
        show n :: names (set rest name value) = _
        rw [ih]
        split
        · rfl
        · rfl

/-- A second write of a name takes the place of the first. -/
theorem set_set_self (entries : Dictionary α) (name : String) (value later : α) :
    set (set entries name value) name later = set entries name later := by
  induction entries with
  | nil => simp [set]
  | cons entry rest ih =>
      obtain ⟨n, v⟩ := entry
      by_cases hn : n = name
      · simp [set, hn]
      · simp [set, hn, ih]

/-- A name that is there may be written before another one or after it. -/
theorem set_comm (h : name ≠ other) (hmem : name ∈ names entries) (value otherValue : α) :
    set (set entries other otherValue) name value =
      set (set entries name value) other otherValue := by
  induction entries with
  | nil => cases hmem
  | cons entry rest ih =>
      obtain ⟨n, v⟩ := entry
      rcases List.mem_cons.mp hmem with hn | hrest
      · -- The name stands here, and what is behind it is only written under the other name.
        subst hn
        simp [set, h]
      · by_cases hn : n = name
        · simp [set, hn, h]
        · by_cases hother : n = other
          · simp [set, hother, Ne.symm h]
          · simp only [set, if_neg hn, if_neg hother, ih hrest]

/-- Write all entries of a dictionary into another one. -/
def setAll (entries more : Dictionary α) : Dictionary α :=
  more.foldl (fun written entry => set written entry.1 entry.2) entries

/-- The names of what is written stand in order of first writing. -/
theorem names_setAll (more : Dictionary α) : names (setAll [] more) = (names more).eraseDups := by
  induction more using List.reverseRecOn with
  | nil => rfl
  | append_singleton more entry ih =>
      have hconcat : setAll [] (more ++ [entry]) = set (setAll [] more) entry.1 entry.2 := by
        rw [setAll, List.foldl_append]
        rfl
      have hnames : names (more ++ [entry]) = names more ++ [entry.1] := List.map_append
      rw [hconcat, names_set, ih, hnames, eraseDups_concat]
      exact if_congr List.mem_eraseDups rfl rfl

/-- A name that is there and is not among the entries may be written before or after them. -/
theorem set_setAll (hmem : name ∈ names entries) (hmore : name ∉ names more) (value : α) :
    set (setAll entries more) name value = setAll (set entries name value) more := by
  induction more generalizing entries with
  | nil => rfl
  | cons entry rest ih =>
      obtain ⟨hentry, hrest⟩ := not_or.mp (mt List.mem_cons.mpr hmore)
      show set (setAll (set entries entry.1 entry.2) rest) name value =
        setAll (set (set entries name value) entry.1 entry.2) rest
      rw [ih (mem_names_set.mpr (Or.inr hmem)) hrest, set_comm hentry hmem]

/-- Writing a dictionary with one more write is writing the dictionary and then this. -/
theorem setAll_set (h : (names more).Nodup) (entries : Dictionary α) (name : String) (value : α) :
    setAll entries (set more name value) = set (setAll entries more) name value := by
  induction more generalizing entries with
  | nil => rfl
  | cons entry rest ih =>
      obtain ⟨n, v⟩ := entry
      obtain ⟨hn, hrest⟩ := List.nodup_cons.mp h
      rw [set]
      by_cases hname : n = name
      · -- The earlier value is written and then replaced, with other names written in between.
        subst hname
        have hmem : n ∈ names (set entries n v) := mem_names_set.mpr (Or.inl rfl)
        rw [if_pos rfl]
        show setAll (set entries n value) rest = set (setAll (set entries n v) rest) n value
        rw [set_setAll hmem hn, set_set_self]
      · rw [if_neg hname]
        exact ih hrest (set entries n v)

/-- **Writing is associative**: writing a dictionary into which others have been written is writing
    the dictionary and then the others. -/
theorem setAll_setAll (h : (names more).Nodup) (entries later : Dictionary α) :
    setAll entries (setAll more later) = setAll (setAll entries more) later := by
  induction later generalizing more with
  | nil => rfl
  | cons entry rest ih =>
      show setAll entries (setAll (set more entry.1 entry.2) rest) =
        setAll (set (setAll entries more) entry.1 entry.2) rest
      rw [ih (nodup_names_set h entry.1 entry.2), setAll_set h]

end Dictionary

end ElementCatalog
