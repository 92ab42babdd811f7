import ElementCatalog.Project.Scan
import ElementCatalog.Proofs.FileOrder

/-!
# Sets of paths — lists in strict order

Files are collected by inserting their paths in order.  Toward: what has been collected is told by
which paths it holds, in whatever order and however often they were inserted.
-/

namespace ElementCatalog.Scan

/-- Paths in strict order. -/
def InOrder (paths : List Path) : Prop :=
  paths.Pairwise fun p q => Path.before p.components q.components = true

/-- Paths that have been inserted one after another. -/
def collect (paths : List Path) : List Path :=
  paths.foldl (fun files p => insertPath p files) []

/-- An inserted path is there, and so is what was there before. -/
theorem mem_insertPath {p q : Path} {paths : List Path} :
    q ∈ insertPath p paths ↔ q = p ∨ q ∈ paths := by
  induction paths with
  | nil => simp [insertPath]
  | cons first rest ih =>
      rw [insertPath]
      split
      · rename_i heq
        simp [heq]
      · split
        · exact List.mem_cons
        · rw [List.mem_cons, ih, List.mem_cons]
          exact or_left_comm

/-- Inserting keeps the order. -/
theorem InOrder.insertPath {paths : List Path} (h : InOrder paths) (p : Path) :
    InOrder (insertPath p paths) := by
  induction paths with
  | nil => exact List.pairwise_singleton _ _
  | cons first rest ih =>
      obtain ⟨hfirst, hrest⟩ := List.pairwise_cons.mp h
      rw [Scan.insertPath]
      split
      · exact h
      · rename_i hne
        split
        · rename_i hbefore
          refine List.pairwise_cons.mpr ⟨?_, h⟩
          intro q hq
          rcases List.mem_cons.mp hq with rfl | hq
          · exact hbefore
          · exact Path.before_trans hbefore (hfirst q hq)
        · -- The path is neither the first one nor before it, so it belongs behind it.
          rename_i hnot
          refine List.pairwise_cons.mpr ⟨?_, ih hrest⟩
          intro q hq
          rcases mem_insertPath.mp hq with rfl | hq
          · rcases Path.before_trichotomy first.components q.components with hlt | heq | hgt
            · exact hlt
            · exact absurd (congrArg Path.mk heq).symm hne
            · exact absurd hgt hnot
          · exact hfirst q hq

/-- What has been collected is what was inserted. -/
theorem mem_collect {p : Path} {paths : List Path} : p ∈ collect paths ↔ p ∈ paths := by
  have hfold : ∀ files : List Path,
      p ∈ paths.foldl (fun files p => insertPath p files) files ↔ p ∈ files ∨ p ∈ paths := by
    induction paths with
    | nil => simp
    | cons first rest ih =>
        intro files
        rw [List.foldl_cons, ih, mem_insertPath, List.mem_cons, or_comm (a := p = first), or_assoc]
  exact (hfold []).trans (by simp)

/-- What has been collected is in order. -/
theorem inOrder_collect (paths : List Path) : InOrder (collect paths) := by
  have hfold : ∀ files : List Path, InOrder files →
      InOrder (paths.foldl (fun files p => insertPath p files) files) := by
    induction paths with
    | nil => exact fun _ h => h
    | cons first rest ih =>
        intro files h
        exact ih _ (h.insertPath first)
  exact hfold [] List.Pairwise.nil

/-- In strict order nothing is repeated. -/
theorem InOrder.nodup {paths : List Path} (h : InOrder paths) : paths.Nodup := by
  refine h.imp ?_
  rintro p q hpq rfl
  rw [Path.before_irrefl] at hpq
  cases hpq

/-- Paths in strict order are told by which they are. -/
theorem InOrder.eq_of_mem_iff {paths others : List Path} (h : InOrder paths)
    (hothers : InOrder others) (hmem : ∀ p, p ∈ paths ↔ p ∈ others) : paths = others := by
  -- Nothing is repeated in either list, so they are permutations of each other.
  refine List.Perm.eq_of_pairwise ?_ h hothers
    ((List.perm_ext_iff_of_nodup h.nodup hothers.nodup).mpr hmem)
  intro p q _ _ hpq hqp
  rw [Path.before_asymm hpq] at hqp
  cases hqp

end ElementCatalog.Scan
