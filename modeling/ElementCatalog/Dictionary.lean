/-!
# Dictionaries — values under names, in order of first writing

A dictionary is a list of entries. Writing a name that is there replaces its value and keeps its
place; a new name goes to the end. As long as entries are only made by `set`, no name occurs twice.
-/

namespace ElementCatalog

/-- Values under names, in order. -/
abbrev Dictionary (α : Type) := List (String × α)

namespace Dictionary

variable {α : Type}

/-- The value under a name. -/
def find? (entries : Dictionary α) (name : String) : Option α :=
  match entries with
  | [] => none
  | (n, v) :: rest => if n = name then some v else find? rest name

/-- Write a value under a name. -/
def set (entries : Dictionary α) (name : String) (value : α) : Dictionary α :=
  match entries with
  | [] => [(name, value)]
  | (n, v) :: rest => if n = name then (n, value) :: rest else (n, v) :: set rest name value

/-- Write a value under a name that is not there yet; a name that is there keeps its value. -/
def setNew (entries : Dictionary α) (name : String) (value : α) : Dictionary α :=
  if (find? entries name).isSome then entries else set entries name value

/-- Remove a name; the entries after it move up. -/
def erase (entries : Dictionary α) (name : String) : Dictionary α :=
  match entries with
  | [] => []
  | (n, v) :: rest => if n = name then rest else (n, v) :: erase rest name

/-- The names, in order. -/
def names (entries : Dictionary α) : List String :=
  entries.map Prod.fst

/-- The values, in order. -/
def values (entries : Dictionary α) : List α :=
  entries.map Prod.snd

/-- Reading back the name that was just written gives the written value. -/
theorem find?_set_self (entries : Dictionary α) (name : String) (value : α) :
    find? (set entries name value) name = some value := by
  induction entries with
  | nil => simp [set, find?]
  | cons entry rest ih =>
    obtain ⟨n, v⟩ := entry
    by_cases h : n = name
    · simp [set, find?, h]
    · simp [set, find?, h, ih]

/-- Writing one name leaves every other name alone. -/
theorem find?_set_of_ne (entries : Dictionary α) {name other : String} (value : α)
    (h : other ≠ name) : find? (set entries name value) other = find? entries other := by
  induction entries with
  | nil => simp [set, find?, Ne.symm h]
  | cons entry rest ih =>
    obtain ⟨n, v⟩ := entry
    by_cases hn : n = name
    · have : ¬ n = other := fun e => h (e.symm.trans hn)
      simp [set, find?, hn, Ne.symm h]
    · simp only [set, hn, if_false, find?, ih]

end Dictionary

end ElementCatalog
