import ElementCatalog.Program.Basic
import Mathlib.Data.List.Nodup
import Mathlib.Data.String.Basic

/-!
# The order of files — a program is told by which files it has

The files of a program stand in the order of their paths.  Toward: parsed files with distinct paths
make one program in whatever order they come, its paths strictly increase, and every file is found
under its path.  The route:

* components are ordered by kind and then by name, and paths component by component, so the order
  of paths is strict and total;
* so sorting leaves one list of all rearrangements of one list;
* a file is found under a path exactly if it is the file of the program with this path.
-/

namespace ElementCatalog

/-! ## Paths -/

namespace Path

/-- No component comes before itself. -/
theorem componentBefore_irrefl (c : PathComponent) : componentBefore c c = false := by
  cases c with
  | name text => exact decide_eq_false (String.lt_irrefl text)
  | root | here | up => rfl

/-- The order of components is transitive. -/
theorem componentBefore_trans {a b c : PathComponent} (hab : componentBefore a b = true)
    (hbc : componentBefore b c = true) : componentBefore a c = true := by
  cases a <;> cases b <;> cases c <;> simp_all [componentBefore, rank, -String.lt_iff_ltb]
  exact String.lt_trans hab hbc

/-- Of two components one comes before the other, unless they are the same. -/
theorem componentBefore_trichotomy (a b : PathComponent) :
    componentBefore a b = true ∨ a = b ∨ componentBefore b a = true := by
  cases a <;> cases b <;> simp [componentBefore, rank, -String.lt_iff_ltb]
  exact lt_trichotomy _ _

/-- No path comes before itself. -/
theorem before_irrefl (p : List PathComponent) : before p p = false := by
  induction p with
  | nil => rfl
  | cons c rest ih =>
      rw [before, if_pos rfl]
      exact ih

/-- The order of paths is transitive. -/
theorem before_trans {p q r : List PathComponent} (hpq : before p q = true)
    (hqr : before q r = true) : before p r = true := by
  induction p generalizing q r with
  | nil =>
      cases r with
      | nil => cases q <;> cases hqr
      | cons c rest => rfl
  | cons a as ih =>
      cases q with
      | nil => cases hpq
      | cons b bs =>
          cases r with
          | nil => cases hqr
          | cons c cs =>
              rw [before] at hpq hqr ⊢
              -- The first components decide the third comparison if they decide one of the others.
              by_cases hab : a = b
              · subst hab
                rw [if_pos rfl] at hpq
                by_cases hac : a = c
                · rw [if_pos hac] at hqr ⊢
                  exact ih hpq hqr
                · rw [if_neg hac] at hqr ⊢
                  exact hqr
              · rw [if_neg hab] at hpq
                by_cases hbc : b = c
                · subst hbc
                  rw [if_neg hab]
                  exact hpq
                · rw [if_neg hbc] at hqr
                  have hac := componentBefore_trans hpq hqr
                  have hne : a ≠ c := by
                    rintro rfl
                    rw [componentBefore_irrefl] at hac
                    cases hac
                  rw [if_neg hne]
                  exact hac

/-- Of two paths one comes before the other, unless they are the same. -/
theorem before_trichotomy (p q : List PathComponent) :
    before p q = true ∨ p = q ∨ before q p = true := by
  induction p generalizing q with
  | nil =>
      cases q with
      | nil => exact Or.inr (Or.inl rfl)
      | cons c rest => exact Or.inl rfl
  | cons a as ih =>
      cases q with
      | nil => exact Or.inr (Or.inr rfl)
      | cons b bs =>
          rw [before, before]
          by_cases hab : a = b
          · subst hab
            rw [if_pos rfl, if_pos rfl]
            exact (ih bs).imp_right (Or.imp_left (congrArg (a :: ·)))
          · rw [if_neg hab, if_neg (Ne.symm hab)]
            rcases componentBefore_trichotomy a b with h | h | h
            · exact Or.inl h
            · exact absurd h hab
            · exact Or.inr (Or.inr h)

/-- Two paths do not come before each other. -/
theorem before_asymm {p q : List PathComponent} (h : before p q = true) : before q p = false := by
  cases hback : before q p with
  | false => rfl
  | true =>
      have hself := before_trans h hback
      rw [before_irrefl] at hself
      cases hself

end Path

/-! ## Sorted files -/

namespace Program

/-- Not coming after is transitive. -/
theorem inOrder_trans (a b c : ParsedFile) (hab : inOrder a b = true) (hbc : inOrder b c = true) :
    inOrder a c = true := by
  rw [inOrder, Bool.not_eq_true'] at hab hbc ⊢
  rcases Path.before_trichotomy b.path.components c.path.components with h | h | h
  · cases hca : Path.before c.path.components a.path.components with
    | false => rfl
    | true =>
        rw [Path.before_trans h hca] at hab
        cases hab
  · rw [← h]
    exact hab
  · rw [h] at hbc
    cases hbc

/-- Of two files one does not come after the other. -/
theorem inOrder_total (a b : ParsedFile) : (inOrder a b || inOrder b a) = true := by
  rw [inOrder, inOrder]
  cases hab : Path.before a.path.components b.path.components with
  | false => exact Bool.or_true _
  | true =>
      rw [Path.before_asymm hab]
      rfl

/-- Two files that do not come after each other have one path. -/
theorem path_eq_of_inOrder {a b : ParsedFile} (hab : inOrder a b = true)
    (hba : inOrder b a = true) : a.path = b.path := by
  rw [inOrder, Bool.not_eq_true'] at hab hba
  rcases Path.before_trichotomy a.path.components b.path.components with h | h | h
  · rw [h] at hba
    cases hba
  · exact congrArg Path.mk h
  · rw [h] at hab
    cases hab

/-- The paths of parsed files are pairwise distinct. -/
def DistinctPaths (parsed : List ParsedFile) : Prop :=
  (parsed.map (·.path)).Nodup

/-- Of files with distinct paths there is one to a path. -/
theorem DistinctPaths.eq_of_path_eq {parsed : List ParsedFile} (h : DistinctPaths parsed)
    {a b : ParsedFile} (ha : a ∈ parsed) (hb : b ∈ parsed) (hpath : a.path = b.path) : a = b :=
  List.inj_on_of_nodup_map h ha hb hpath

/-- Files with distinct paths are sorted to the one order of them that is sorted. -/
theorem eq_mergeSort_of_perm {parsed sorted : List ParsedFile} (h : DistinctPaths parsed)
    (hsorted : sorted.Pairwise fun a b => inOrder a b = true) (hperm : sorted.Perm parsed) :
    sorted = parsed.mergeSort inOrder := by
  have hsame : sorted.Perm (parsed.mergeSort inOrder) :=
    hperm.trans (List.mergeSort_perm parsed inOrder).symm
  refine List.Perm.eq_of_pairwise (fun a b ha hb hab hba => ?_) hsorted
    (List.pairwise_mergeSort inOrder_trans inOrder_total parsed) hsame
  exact h.eq_of_path_eq (hperm.mem_iff.mp ha) (List.mem_mergeSort.mp hb)
    (path_eq_of_inOrder hab hba)

/-- Files with distinct paths are sorted to one list from every order. -/
theorem mergeSort_eq_of_perm {parsed parsed' : List ParsedFile} (h : DistinctPaths parsed)
    (hperm : parsed.Perm parsed') : parsed.mergeSort inOrder = parsed'.mergeSort inOrder :=
  (eq_mergeSort_of_perm h (List.pairwise_mergeSort inOrder_trans inOrder_total parsed')
    ((List.mergeSort_perm parsed' inOrder).trans hperm.symm)).symm

/-- **The order of files**: parsed files with distinct paths make one program in whatever order they
    come. -/
theorem ofParsed_eq_of_perm (root : Path) {parsed parsed' : List ParsedFile}
    (h : DistinctPaths parsed) (hperm : parsed.Perm parsed') :
    ofParsed root parsed = ofParsed root parsed' := by
  simp only [ofParsed, mergeSort_eq_of_perm h hperm]

/-- Sorting files with distinct paths makes their paths strictly increase. -/
theorem pairwise_before_mergeSort {parsed : List ParsedFile} (h : DistinctPaths parsed) :
    (parsed.mergeSort inOrder).Pairwise fun a b =>
      Path.before a.path.components b.path.components = true := by
  have hsorted := List.pairwise_mergeSort inOrder_trans inOrder_total parsed
  have hdistinct : DistinctPaths (parsed.mergeSort inOrder) :=
    ((List.mergeSort_perm parsed inOrder).map _).nodup_iff.mpr h
  refine (hsorted.and (List.pairwise_map.mp hdistinct)).imp fun {a b} hab => ?_
  obtain ⟨horder, hne⟩ := hab
  rw [inOrder, Bool.not_eq_true'] at horder
  rcases Path.before_trichotomy a.path.components b.path.components with hlt | heq | hgt
  · exact hlt
  · exact absurd (congrArg Path.mk heq) hne
  · rw [hgt] at horder
    cases horder

/-- The parsed files of a program, in their order. -/
theorem map_files_ofParsed {β : Type} (root : Path) (parsed : List ParsedFile)
    (view : ParsedFile → β) (view' : SourceFile → β)
    (hview : ∀ p place, view' (placed root p place) = view p) :
    (ofParsed root parsed).files.map view' = (parsed.mergeSort inOrder).map view := by
  have hplaced : (ofParsed root parsed).files.map view' =
      ((parsed.mergeSort inOrder).zipIdx.map Prod.fst).map view := by
    simp only [ofParsed, List.map_map]
    exact List.map_congr_left fun p _ => hview p.1 p.2
  rw [hplaced, List.zipIdx_map_fst]

/-- The paths of the files of a program strictly increase. -/
theorem pairwise_before_files (root : Path) {parsed : List ParsedFile} (h : DistinctPaths parsed) :
    (ofParsed root parsed).files.Pairwise fun a b =>
      Path.before a.path.components b.path.components = true := by
  have hpaths := map_files_ofParsed root parsed (·.path.components) (·.path.components)
    fun _ _ => rfl
  have hsorted : ((parsed.mergeSort inOrder).map (·.path.components)).Pairwise
      (Path.before · · = true) := List.pairwise_map.mpr (pairwise_before_mergeSort h)
  rw [← hpaths] at hsorted
  exact List.pairwise_map.mp hsorted

/-! ## Files of a program -/

/-- The files of a program are those that were parsed. -/
theorem mem_files_ofParsed {root : Path} {parsed : List ParsedFile} {file : SourceFile}
    (h : file ∈ (ofParsed root parsed).files) :
    ∃ p ∈ parsed, ∃ place, file = placed root p place := by
  obtain ⟨⟨p, place⟩, hp, rfl⟩ := List.mem_map.mp h
  exact ⟨p, List.mem_mergeSort.mp (List.fst_mem_of_mem_zipIdx hp), place, rfl⟩

/-- A parsed file has its place in the program. -/
theorem exists_placed (root : Path) {parsed : List ParsedFile} {p : ParsedFile} (h : p ∈ parsed) :
    ∃ place, placed root p place ∈ (ofParsed root parsed).files := by
  obtain ⟨place, hplace⟩ := List.getElem?_of_mem (List.mem_mergeSort.mpr h)
  exact ⟨place, List.mem_map.mpr ⟨(p, place), List.mem_zipIdx_iff_getElem?.mpr hplace, rfl⟩⟩

/-- The file that is found under a path has this path. -/
theorem path_of_file? {program : Program} {path : Path} {file : SourceFile}
    (h : program.file? path = some file) : file.path = path :=
  eq_of_beq (List.find?_some (p := fun file : SourceFile => file.path == path) h)

/-- The file that is found under a path is a file of the program. -/
theorem mem_of_file? {program : Program} {path : Path} {file : SourceFile}
    (h : program.file? path = some file) : file ∈ program.files :=
  List.mem_reverse.mp (List.mem_of_find?_eq_some h)

/-- Where one file of a program has a path, a file is found under it. -/
theorem exists_file? {program : Program} {file : SourceFile} (h : file ∈ program.files) :
    ∃ found, program.file? file.path = some found := by
  cases hfound : program.file? file.path with
  | some found => exact ⟨found, rfl⟩
  | none =>
      have hnot := List.find?_eq_none.mp hfound file (List.mem_reverse.mpr h)
      exact absurd (beq_self_eq_true file.path) hnot

/-- Two files of a program whose paths strictly increase are one file if they have one path. -/
theorem eq_of_path_eq {program : Program}
    (h : program.files.Pairwise fun a b =>
      Path.before a.path.components b.path.components = true)
    {a b : SourceFile} (ha : a ∈ program.files) (hb : b ∈ program.files)
    (hpath : a.path = b.path) : a = b := by
  have hpaths : (program.files.map (·.path)).Nodup :=
    List.pairwise_map.mpr (h.imp fun {a b} hab heq => by
      rw [heq, Path.before_irrefl] at hab
      cases hab)
  exact List.inj_on_of_nodup_map hpaths ha hb hpath

/-- In a program whose paths strictly increase, exactly the file of a path is found under it. -/
theorem file?_eq_some_iff {program : Program}
    (h : program.files.Pairwise fun a b =>
      Path.before a.path.components b.path.components = true)
    {path : Path} {file : SourceFile} :
    program.file? path = some file ↔ file ∈ program.files ∧ file.path = path := by
  constructor
  · exact fun hfound => ⟨mem_of_file? hfound, path_of_file? hfound⟩
  · rintro ⟨hmem, rfl⟩
    obtain ⟨found, hfound⟩ := exists_file? hmem
    rw [hfound, eq_of_path_eq h (mem_of_file? hfound) hmem (path_of_file? hfound)]

end Program

end ElementCatalog
