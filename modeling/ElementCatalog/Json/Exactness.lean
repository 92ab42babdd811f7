import ElementCatalog.Json.Value
import Mathlib.Data.List.Nodup

/-!
# Exact values — values that their texts say exactly

Whole numbers of 64 bits, with or without a sign, are kept digit by digit, and an object keeps its
fields if their names differ.  Other numbers go through their nearest double.
-/

namespace ElementCatalog.Json

/-- All numbers of a value are whole and fit 64 bits, and no object has two fields of one name. -/
inductive Exact : Json → Prop where
  | null : Exact .null
  | bool (value : Bool) : Exact (.bool value)
  | int {value : Int} (hlow : -(Nat.pow 2 63 : Nat) ≤ value) (hhigh : value < (Nat.pow 2 64 : Nat)) :
    Exact (.int value)
  | string (value : String) : Exact (.string value)
  | array {items : List Json} (h : ∀ item ∈ items, Exact item) : Exact (.array items)
  | object {fields : List (String × Json)} (hnames : (fields.map Prod.fst).Nodup)
    (h : ∀ field ∈ fields, Exact field.2) : Exact (.object fields)

mutual

/-- How many lists and objects a value nests. -/
def levels : Json → Nat
  | .array items => itemLevels items + 1
  | .object fields => fieldLevels fields + 1
  | _ => 0

/-- The most levels of some items. -/
def itemLevels : List Json → Nat
  | [] => 0
  | item :: items => max (levels item) (itemLevels items)

/-- The most levels of the values of some fields. -/
def fieldLevels : List (String × Json) → Nat
  | [] => 0
  | (_, value) :: fields => max (levels value) (fieldLevels fields)

end

/-- No item nests more than the items together. -/
theorem levels_le_itemLevels {item : Json} {items : List Json} (h : item ∈ items) :
    item.levels ≤ itemLevels items := by
  induction items with
  | nil => cases h
  | cons first rest ih =>
      rw [itemLevels]
      rcases List.mem_cons.mp h with rfl | h
      · exact Nat.le_max_left _ _
      · exact Nat.le_trans (ih h) (Nat.le_max_right _ _)

/-- No field nests more than the fields together. -/
theorem levels_le_fieldLevels {field : String × Json} {fields : List (String × Json)}
    (h : field ∈ fields) : field.2.levels ≤ fieldLevels fields := by
  induction fields with
  | nil => cases h
  | cons first rest ih =>
      obtain ⟨name, value⟩ := first
      rw [fieldLevels]
      rcases List.mem_cons.mp h with rfl | h
      · exact Nat.le_max_left _ _
      · exact Nat.le_trans (ih h) (Nat.le_max_right _ _)

end ElementCatalog.Json
