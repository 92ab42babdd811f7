import ElementCatalog.Path.Basic
import Mathlib.Data.List.Basic

/-!
# Locations — where paths lead

A location is a place in the tree of directories, told by the names on the way to it.  A path is
followed from a location one component after another; above the root there is the root again.  The
course of a path is the shortest way to the same place: how many directories are left, and which
names are entered behind them.
-/

namespace ElementCatalog

/-- A place in the tree of directories: the names on the way to it, the innermost first. -/
abbrev Location := List String

/-- The location that one component leads to. -/
def Location.step (l : Location) : PathComponent → Location
  | .root => []
  | .here => l
  | .up => l.tail
  | .name text => text :: l

namespace Path

/-- The location that a path leads to from another one. -/
def locationFrom (p : Path) (start : Location) : Location :=
  p.components.foldl Location.step start

/-- Names lead down from where they start. -/
theorem foldl_step_names (names : List String) (start : Location) :
    (names.map PathComponent.name).foldl Location.step start = names.reverse ++ start := by
  induction names generalizing start with
  | nil => rfl
  | cons name rest ih =>
      rw [List.map_cons, List.foldl_cons, ih, List.reverse_cons, List.append_assoc]
      rfl

/-- The names at a location are from the start or from the path. -/
theorem mem_locationFrom {p : Path} {start : Location} {n : String}
    (h : n ∈ p.locationFrom start) : n ∈ start ∨ .name n ∈ p.components := by
  obtain ⟨components⟩ := p
  rw [locationFrom] at h
  induction components generalizing start with
  | nil => exact Or.inl h
  | cons component rest ih =>
      rcases ih h with hstep | hrest
      · cases component with
        | root => cases hstep
        | here => exact Or.inl hstep
        | up => exact Or.inl (List.mem_of_mem_tail hstep)
        | name text =>
            rcases List.mem_cons.mp hstep with rfl | hmem
            · exact Or.inr List.mem_cons_self
            · exact Or.inl hmem
      · exact Or.inr (List.mem_cons_of_mem _ hrest)

/-! ## Courses -/

/-- Some directories to leave, and names to enter then.  An absolute course starts from the root,
    where there is nothing to leave. -/
structure Course where
  absolute : Bool := false
  up : Nat := 0
  down : Location := []
deriving DecidableEq, Repr

/-- A course with one more component.  A double dot takes back the last name; where there is none it
    leaves one more directory. -/
def Course.step (c : Course) : PathComponent → Course
  | .root => { absolute := true }
  | .here => c
  | .up =>
    match c.down with
    | _ :: names => { c with down := names }
    | [] => if c.absolute then c else { c with up := c.up + 1 }
  | .name text => { c with down := text :: c.down }

/-- The location that a course leads to. -/
def Course.locationFrom (c : Course) (start : Location) : Location :=
  c.down ++ if c.absolute then [] else start.drop c.up

/-- The course of a path. -/
def course (p : Path) : Course :=
  p.components.foldl Course.step {}

/-- A step goes on from the end of a course. -/
theorem Course.locationFrom_step (c : Course) (component : PathComponent) (start : Location) :
    (c.step component).locationFrom start = (c.locationFrom start).step component := by
  obtain ⟨absolute, up, down⟩ := c
  cases component with
  | root => rfl
  | here => rfl
  | name text => rfl
  | up =>
      cases down with
      | cons name names => rfl
      | nil =>
          cases absolute with
          | true => rfl
          | false =>
              show start.drop (up + 1) = (start.drop up).tail
              rw [List.tail_drop]

/-- A course starts from the root exactly if a component of the path is the root. -/
theorem course_absolute_iff (p : Path) : p.course.absolute = true ↔ .root ∈ p.components := by
  have hfold : ∀ (components : List PathComponent) (c : Course),
      (components.foldl Course.step c).absolute = true ↔
        c.absolute = true ∨ .root ∈ components := by
    intro components
    induction components with
    | nil => intro c; simp
    | cons component rest ih =>
        intro c
        rw [List.foldl_cons, ih, List.mem_cons, ← or_assoc]
        refine or_congr_left ?_
        cases component with
        | root => simp [Course.step]
        | here => simp [Course.step]
        | name text => simp [Course.step]
        | up =>
            rw [Course.step]
            split
            · simp
            · split <;> simp_all
  exact (hfold p.components {}).trans (by simp)

/-- A path leads where its course leads. -/
theorem locationFrom_eq_course (p : Path) (start : Location) :
    p.locationFrom start = p.course.locationFrom start := by
  -- What has been followed so far leads where its course leads.
  have hfold : ∀ (components : List PathComponent) (c : Course),
      (components.foldl Course.step c).locationFrom start =
        components.foldl Location.step (c.locationFrom start) := by
    intro components
    induction components with
    | nil => intro c; rfl
    | cons component rest ih =>
        intro c
        rw [List.foldl_cons, List.foldl_cons, ih, Course.locationFrom_step]
  exact (hfold p.components {}).symm

/-! ## Climbing -/

/-- The paths that are left of reversed components when they are taken off one after another.  The
    root is not taken off. -/
def climbFrom : List PathComponent → List Path
  | [] => [⟨[]⟩]
  | .root :: rest => [⟨(.root :: rest).reverse⟩]
  | component :: rest => ⟨(component :: rest).reverse⟩ :: climbFrom rest

/-- A path, and the paths that are left of it when components are taken off its end. -/
def climb (p : Path) : List Path :=
  climbFrom p.components.reverse

/-- A component that is not the root is taken off. -/
theorem parent?_concat (front : List PathComponent) {last : PathComponent} (h : last ≠ .root) :
    (⟨front ++ [last]⟩ : Path).parent? = some ⟨front⟩ := by
  rw [parent?, List.getLast?_concat]
  cases last with
  | root => exact absurd rfl h
  | here | up | name =>
      dsimp only
      rw [List.dropLast_concat]

/-- Climbing goes on from the directory that a path lies in. -/
theorem climb_eq (p : Path) :
    p.climb = p :: match p.parent? with
      | some parent => parent.climb
      | none => [] := by
  obtain ⟨components⟩ := p
  rcases List.eq_nil_or_concat' components with rfl | ⟨front, last, rfl⟩
  · rfl
  · rw [climb, List.reverse_concat]
    cases last with
    | root => simp [climbFrom, parent?]
    | here | up | name =>
        rw [parent?_concat front (by simp)]
        simp [climbFrom, climb]

/-- What is left of a path has no other components. -/
theorem mem_of_mem_climb {p q : Path} (h : q ∈ p.climb) {c : PathComponent}
    (hc : c ∈ q.components) : c ∈ p.components := by
  have hclimb : ∀ components : List PathComponent, q ∈ climbFrom components → c ∈ components := by
    intro components
    induction components with
    | nil =>
        intro hq
        rw [List.mem_singleton.mp hq] at hc
        cases hc
    | cons component rest ih =>
        intro hq
        cases component with
        | root =>
            rw [List.mem_singleton.mp hq] at hc
            exact List.mem_reverse.mp hc
        | here | up | name =>
            rcases List.mem_cons.mp hq with rfl | hrest
            · exact List.mem_reverse.mp hc
            · exact List.mem_cons_of_mem _ (ih hrest)
  exact List.mem_reverse.mp (hclimb _ h)

end Path

end ElementCatalog
