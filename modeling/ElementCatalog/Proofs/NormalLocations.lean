import ElementCatalog.Path.Location
import ElementCatalog.Path.Normal

/-!
# Where normal paths lead — double dots that are lost

Toward: a path and its normal form lead to the same place from every directory exactly if the path
is absolute or leaves at most one directory above its start.  The route:

* what normalization has collected is always a start with the names of the course behind it
  (`Collects`), but of the double dots at the start it keeps none or one: a second one removes the
  first;
* so the normal form leaves one directory where the path leaves an odd number of them, and none
  where it leaves an even number;
* two numbers of directories lead up to the same place exactly if they are the same or both lead to
  the root.
-/

namespace ElementCatalog.Path

/-! ## What is collected -/

/-- What may be collected before the names of a course. -/
def Course.fronts (c : Course) : List (List PathComponent) :=
  if c.absolute then [[.root], [.root, .up]] else if c.up % 2 = 1 then [[.up]] else [[]]

/-- The components that are collected on a course end in its names. -/
def Collects (c : Course) (collected : List PathComponent) : Prop :=
  ∃ front ∈ c.fronts, collected = front ++ c.down.reverse.map .name

/-- At the start nothing has been collected. -/
theorem Collects.start : Collects {} [] :=
  ⟨[], List.mem_singleton.mpr rfl, rfl⟩

/-- One more name is collected at the end. -/
theorem map_name_reverse_cons (name : String) (names : Location) :
    (name :: names).reverse.map PathComponent.name =
      names.reverse.map .name ++ [.name name] := by
  simp

/-- A double dot behind a name removes the name. -/
theorem step_up_concat (front : List PathComponent) (name : String) :
    step (front ++ [.name name]) .up = front := by
  simp [step]

/-- A double dot that removes no name is kept or removes another one. -/
theorem step_up_front {c : Course} (hdown : c.down = []) {front : List PathComponent}
    (h : front ∈ c.fronts) : step front .up ∈ (c.step .up).fronts := by
  obtain ⟨absolute, up, down⟩ := c
  subst hdown
  cases absolute with
  | true =>
      rcases List.mem_cons.mp h with rfl | hlast
      · exact List.mem_cons_of_mem _ (List.mem_singleton.mpr rfl)
      · rw [List.mem_singleton.mp hlast]
        exact List.mem_cons_self
  | false =>
      simp only [Course.fronts, Course.step, Bool.false_eq_true, if_false] at h ⊢
      -- An even number has cancelled out, so this one is kept; behind an odd one it cancels the last.
      rcases Nat.mod_two_eq_zero_or_one up with hup | hup
      · rw [if_neg (by omega), List.mem_singleton] at h
        rw [if_pos (by omega), h]
        decide
      · rw [if_pos hup, List.mem_singleton] at h
        rw [if_neg (by omega), h]
        decide

/-- A step of normalization collects a step of the course. -/
theorem Collects.step {c : Course} {collected : List PathComponent} (h : Collects c collected)
    (component : PathComponent) : Collects (c.step component) (Path.step collected component) := by
  cases component with
  | root => exact ⟨[.root], List.mem_cons_self, rfl⟩
  | here => exact h
  | name text =>
      obtain ⟨front, hfront, rfl⟩ := h
      refine ⟨front, hfront, ?_⟩
      show _ = front ++ (text :: c.down).reverse.map .name
      rw [map_name_reverse_cons, ← List.append_assoc]
      rfl
  | up =>
      obtain ⟨front, hfront, rfl⟩ := h
      cases hdown : c.down with
      | nil =>
          refine ⟨Path.step front .up, step_up_front hdown hfront, ?_⟩
          have hnames : (c.step .up).down = [] := by
            rw [Course.step, hdown]
            dsimp only
            split
            · exact hdown
            · rfl
          rw [hnames]
          simp
      | cons name names =>
          have hstep : c.step .up = { c with down := names } := by
            rw [Course.step, hdown]
          rw [hstep, map_name_reverse_cons, ← List.append_assoc, step_up_concat]
          exact ⟨front, hfront, rfl⟩

/-- Normalization collects the course of a path. -/
theorem collects_normalize (p : Path) : Collects p.course p.normalize.components := by
  have hfold : ∀ (components : List PathComponent) (c : Course) (collected : List PathComponent),
      Collects c collected →
        Collects (components.foldl Course.step c) (components.foldl Path.step collected) := by
    intro components
    induction components with
    | nil => intro c collected h; exact h
    | cons component rest ih =>
        intro c collected h
        exact ih _ _ (h.step component)
  exact hfold p.components {} [] .start

/-! ## Where it leads -/

/-- The normal form of a relative path leaves one directory above its start, or none. -/
theorem locationFrom_normalize (p : Path) (start : Location) :
    p.normalize.locationFrom start =
      p.course.down ++ if p.course.absolute then [] else start.drop (p.course.up % 2) := by
  obtain ⟨front, hfront, hcollected⟩ := collects_normalize p
  rw [locationFrom, hcollected, List.foldl_append, foldl_step_names, List.reverse_reverse,
    List.append_cancel_left_eq]
  rw [Course.fronts] at hfront
  cases habsolute : p.course.absolute with
  | true =>
      rw [habsolute, if_pos rfl] at hfront
      rcases List.mem_cons.mp hfront with rfl | hlast
      · rfl
      · rw [List.mem_singleton.mp hlast]
        rfl
  | false =>
      rw [habsolute, if_neg Bool.false_ne_true] at hfront
      rcases Nat.mod_two_eq_zero_or_one p.course.up with hup | hup
      · rw [if_neg (by omega), List.mem_singleton] at hfront
        rw [hfront, hup]
        rfl
      · rw [if_pos hup, List.mem_singleton] at hfront
        rw [hfront, hup]
        show start.tail = start.drop 1
        rw [List.drop_one]

/-- Leaving fewer directories leads to the same place only if both lead to the root. -/
theorem drop_eq_drop_iff {α : Type} (l : List α) {m n : Nat} (h : m ≤ n) :
    l.drop m = l.drop n ↔ m = n ∨ l.length ≤ m := by
  constructor
  · intro heq
    have hlength := congrArg List.length heq
    rw [List.length_drop, List.length_drop] at hlength
    omega
  · rintro (rfl | hshort)
    · rfl
    · rw [List.drop_eq_nil_of_le hshort, List.drop_eq_nil_of_le (Nat.le_trans hshort h)]

/-- **Where normal paths lead**: the normal form of a path leads to the same place as the path from
    a directory exactly if the path is absolute, leaves at most one directory above this one, or
    leads to the root with as many as the normal form leaves.  From every directory it does so
    exactly if the path is absolute or leaves at most one. -/
theorem normalize_keeps_location_iff (p : Path) :
    (∀ start : Location, p.normalize.locationFrom start = p.locationFrom start ↔
      .root ∈ p.components ∨ p.course.up ≤ 1 ∨ start.length ≤ p.course.up % 2) ∧
    ((∀ start : Location, p.normalize.locationFrom start = p.locationFrom start) ↔
      .root ∈ p.components ∨ p.course.up ≤ 1) := by
  have hstart : ∀ start : Location, p.normalize.locationFrom start = p.locationFrom start ↔
      .root ∈ p.components ∨ p.course.up ≤ 1 ∨ start.length ≤ p.course.up % 2 := by
    intro start
    rw [locationFrom_normalize, locationFrom_eq_course, Course.locationFrom,
      List.append_cancel_left_eq, ← course_absolute_iff]
    cases p.course.absolute with
    | true => simp
    | false =>
        have hdrop := drop_eq_drop_iff start (Nat.mod_le p.course.up 2)
        simp only [Bool.false_eq_true, if_false, false_or]
        rw [hdrop]
        omega
  refine ⟨hstart, ?_⟩
  constructor
  · intro hall
    -- A directory far enough below the root tells the two apart.
    have hfar := (hstart ["a", "b"]).mp (hall ["a", "b"])
    have hlength : (["a", "b"] : Location).length = 2 := rfl
    rw [hlength] at hfar
    rcases hfar with habsolute | hup | hshort
    · exact Or.inl habsolute
    · exact Or.inr hup
    · omega
  · intro h start
    exact (hstart start).mpr (h.imp_right Or.inl)

/-- Two double dots cancel each other. -/
example : normalize ⟨[.up, .up, .name "lib"]⟩ = ⟨[.name "lib"]⟩ := by decide

end ElementCatalog.Path
