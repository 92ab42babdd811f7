import ElementCatalog.Proofs.DiskLocations
import ElementCatalog.Proofs.NormalPaths

/-!
# Spellings of files — finitely many normal paths

A file is found under several paths, also under several normal ones: absolute or not, and with or
without a double dot at the start.  Toward: all the files of a disk together are found under at most
four times as many normal paths as there are files.  The route:

* a path is followed on a way from the root of the disk, so a file is found at the end of one of the
  ways through the tree;
* the names of a normal path stand at the end of this way, and how many names are before them
  depends on the start alone;
* so a normal path to a file is told by its start and by the way to the file.
-/

namespace ElementCatalog

/-! ## Ways to files -/

namespace FileTree

mutual

/-- The ways to the files at or below a place, each as the names on it. -/
def filePaths : FileTree → List (List String)
  | .file _ => [[]]
  | .directory entries => filePathsAmong entries

/-- The ways to the files among the contents of a directory. -/
def filePathsAmong : List (String × FileTree) → List (List String)
  | [] => []
  | (name, tree) :: rest => tree.filePaths.map (name :: ·) ++ filePathsAmong rest

end

mutual

/-- There is one way to each file. -/
theorem length_filePaths : ∀ tree : FileTree, tree.filePaths.length = tree.fileCount
  | .file _ => rfl
  | .directory entries => length_filePathsAmong entries

/-- There is one way to each file among the contents of a directory. -/
theorem length_filePathsAmong : ∀ entries : List (String × FileTree),
    (filePathsAmong entries).length = fileCountAmong entries
  | [] => rfl
  | (name, tree) :: rest => by
      rw [filePathsAmong, fileCountAmong, List.length_append, List.length_map,
        length_filePaths tree, length_filePathsAmong rest]

end

/-- A way from an entry is, behind the name of the entry, a way from the directory. -/
theorem mem_filePathsAmong {entries : List (String × FileTree)} {name : String} {tree : FileTree}
    {way : List String} (h : Dictionary.find? entries name = some tree)
    (hway : way ∈ tree.filePaths) : name :: way ∈ filePathsAmong entries := by
  induction entries with
  | nil => cases h
  | cons entry rest ih =>
      obtain ⟨n, t⟩ := entry
      rw [filePathsAmong, List.mem_append]
      rw [Dictionary.find?] at h
      split at h
      · rename_i hn
        cases h
        rw [hn]
        exact Or.inl (List.mem_map_of_mem hway)
      · exact Or.inr (ih h)

end FileTree

namespace Disk

/-- Behind the names on a trail, a way from its end is a way from the root of the disk. -/
theorem IsWay.mem_filePaths {d : Disk} {trail : Trail} (h : d.IsWay trail) :
    ∀ way ∈ (d.here trail).filePaths, names trail ++ way ∈ d.root.filePaths := by
  induction trail with
  | nil => exact fun way hway => hway
  | cons place rest ih =>
      obtain ⟨name, tree⟩ := place
      obtain ⟨hrest, entries, hhere, hfind⟩ := h
      intro way hway
      have hnames : names ((name, tree) :: rest) ++ way = names rest ++ name :: way := by
        simp [names]
      rw [hnames]
      refine ih hrest _ ?_
      rw [hhere]
      exact FileTree.mem_filePathsAmong hfind hway

/-- Names that are followed are added. -/
theorem names_foldlM {d : Disk} {added : List String} (hadded : ∀ n ∈ added, Path.IsName n)
    {trail after : Trail} (h : added.foldlM d.step trail = .ok after) :
    names after = names trail ++ added := by
  have hlocation := location_foldlM (fun n hn => (hadded n hn).takesStep) h
  rw [Path.map_component_of_isName hadded, Path.foldl_step_names] at hlocation
  rw [names, hlocation, List.reverse_append, List.reverse_reverse]
  rfl

/-! ## Normal paths to files -/

/-- The names of a normal path to a file stand at the end of the way to it, behind a number of names
    that its start tells. -/
theorem exists_way_of_start (d : Disk) {start : List PathComponent} (hstart : start ∈ Path.starts) :
    ∃ before : Nat, ∀ added : List String, (∀ n ∈ added, Path.IsName n) →
      d.isFile (⟨start ++ added.map .name⟩ : Path).text = true →
        ∃ way ∈ d.root.filePaths, added = way.drop before := by
  obtain ⟨head, hhead, ups, hups, rfl⟩ := Path.exists_head_of_start hstart
  -- The steps before the names are those of the start, behind the working directory's.
  obtain ⟨front, hfront⟩ : ∃ front, front =
      (if head = [.root] then [] else Path.stepPieces d.workingDirectory) ++ ups := ⟨_, rfl⟩
  have hpieces : ∀ added : List String, (∀ n ∈ added, Path.IsName n) →
      d.isFile (⟨head ++ ups.map Path.component ++ added.map .name⟩ : Path).text = true →
        ∃ trail text, (front ++ added).foldlM d.step [] = .ok trail ∧ d.here trail = .file text := by
    intro added hadded hfile
    obtain ⟨trail, text, hfollow, hhere⟩ := isFile_iff.mp hfile
    refine ⟨trail, text, ?_, hhere⟩
    have hsteps : ∀ q ∈ ups ++ added, Path.takesStep q = true ∧ '/' ∉ q.toList := by
      intro q hq
      rcases List.mem_append.mp hq with hq | hq
      · exact hups q hq
      · exact (hadded q hq).isStep
    have hfollowed := (follow_eq_ok_iff.mp hfollow).2.1
    rwa [← Path.map_component_of_isName hadded, List.append_assoc, ← List.map_append,
      steps_text d hhead hsteps, ← List.append_assoc, ← hfront] at hfollowed
  -- If the pieces of the start lead nowhere, no file is found and any number will do.
  refine ⟨((front.foldlM d.step []).toOption.getD []).length, fun added hadded hfile => ?_⟩
  obtain ⟨trail, text, hfollow, hhere⟩ := hpieces added hadded hfile
  rw [List.foldlM_append] at hfollow
  cases hbefore : front.foldlM d.step [] with
  | error fault =>
      rw [hbefore] at hfollow
      cases hfollow
  | ok middle =>
      rw [hbefore] at hfollow
      have hstart : d.IsWay [] := trivial
      have hway : d.IsWay trail :=
        IsWay.foldlM added (IsWay.foldlM front hstart hbefore) hfollow
      have hmem := hway.mem_filePaths [] (by rw [hhere]; exact List.mem_singleton.mpr rfl)
      rw [List.append_nil] at hmem
      refine ⟨names trail, hmem, ?_⟩
      rw [names_foldlM hadded hfollow]
      exact (List.drop_left' (by simp [names, Except.toOption])).symm

/-- **Spellings of files**: the normal paths under which a disk has files are at most four times as
    many as its files. -/
theorem exists_spellings (d : Disk) : ∃ spellings : List Path,
    spellings.length = 4 * d.root.fileCount ∧
      ∀ p : Path, p.IsNormal → d.isFile p.text = true → p ∈ spellings := by
  have hways := fun start (hstart : start ∈ Path.starts) => exists_way_of_start d hstart
  choose before hbefore using hways
  refine ⟨Path.starts.attach.flatMap fun start => d.root.filePaths.map fun way =>
    ⟨start.1 ++ (way.drop (before start.1 start.2)).map .name⟩, ?_, ?_⟩
  · simp only [List.length_flatMap, List.length_map, FileTree.length_filePaths, List.map_const',
      List.sum_replicate_nat, List.length_attach]
    rfl
  · rintro p ⟨start, hstart, added, hadded, rfl⟩ hfile
    obtain ⟨way, hway, hdrop⟩ := hbefore start hstart added hadded hfile
    refine List.mem_flatMap.mpr ⟨⟨start, hstart⟩, List.mem_attach _ _, ?_⟩
    exact List.mem_map.mpr ⟨way, hway, by rw [hdrop]⟩

end Disk

end ElementCatalog
