import ElementCatalog.Project.Scan
import ElementCatalog.Proofs.DiskLocations

/-!
# Found files — what a walk through directories finds

Toward: what is found at or below a place is a file on the disk, under the path of the place with the
names on the way behind it, and none of these names is left out of the walk.  The route:

* on a disk whose directories hold distinct names, an entry of a directory is what its name leads to
  (`Dictionary.find?_of_mem`), so a walk through the entries is a way on the disk
  (`FileTree.Proper.walksTo`);
* a name behind a path is one more component of it, so is a way (`ofText_foldl_joinText`);
* a file is also found under the path that its path is read to (`isFile_text_ofText`).
-/

namespace ElementCatalog

open ElementCatalog.Path (endsInStep joinText ofText IsName)

/-! ## Trees -/

/-- The directories of a tree hold distinct names. -/
inductive FileTree.Proper : FileTree → Prop where
  | file (text : Option String) : Proper (.file text)
  | directory {entries : List (String × FileTree)} (hdistinct : (Dictionary.names entries).Nodup)
      (hnames : ∀ entry ∈ entries, IsName entry.1) (htrees : ∀ entry ∈ entries, Proper entry.2) :
      Proper (.directory entries)

/-- What is among the contents of a directory is one of its entries or below one. -/
theorem FileTree.mem_entriesAmong {enter : String → Bool} {path : String}
    {entries : List (String × FileTree)} {e : Entry} (h : e ∈ entriesAmong enter path entries) :
    ∃ name tree, (name, tree) ∈ entries ∧ enter name = true ∧
      (e = ⟨joinText path name, name, tree.isFile⟩ ∨
        e ∈ tree.entriesBelow enter (joinText path name)) := by
  induction entries with
  | nil => cases h
  | cons entry rest ih =>
      obtain ⟨name, tree⟩ := entry
      rw [entriesAmong, List.mem_append] at h
      rcases h with hfirst | hrest
      · split at hfirst
        · rename_i henter
          exact ⟨name, tree, List.mem_cons_self, henter, List.mem_cons.mp hfirst⟩
        · cases hfirst
      · obtain ⟨name', tree', hmem, hfound⟩ := ih hrest
        exact ⟨name', tree', List.mem_cons_of_mem _ hmem, hfound⟩

/-- An entry that may be entered is among the contents of a directory. -/
theorem FileTree.mem_entriesAmong_of_mem {enter : String → Bool} {path name : String}
    {tree : FileTree} {entries : List (String × FileTree)} (hmem : (name, tree) ∈ entries)
    (henter : enter name = true) :
    (⟨joinText path name, name, tree.isFile⟩ : Entry) ∈ entriesAmong enter path entries := by
  induction entries with
  | nil => cases hmem
  | cons entry rest ih =>
      rw [entriesAmong, List.mem_append]
      rcases List.mem_cons.mp hmem with rfl | hrest
      · rw [if_pos henter]
        exact Or.inl List.mem_cons_self
      · exact Or.inr (ih hrest)

/-- What is among contents is among their first ones or among the others. -/
theorem FileTree.entriesAmong_append (enter : String → Bool) (path : String)
    (entries more : List (String × FileTree)) : entriesAmong enter path (entries ++ more) =
      entriesAmong enter path entries ++ entriesAmong enter path more := by
  induction entries with
  | nil => rfl
  | cons entry rest ih =>
      obtain ⟨name, tree⟩ := entry
      rw [List.cons_append, entriesAmong, entriesAmong, ih, List.append_assoc]

/-! ## Ways -/

namespace Disk

variable {d : Disk}

/-- What is at the end of a way has distinct names if the disk has. -/
theorem IsWay.proper_here (h : d.root.Proper) {trail : Trail} (hway : d.IsWay trail) :
    (d.here trail).Proper := by
  induction trail with
  | nil => exact h
  | cons place rest ih =>
      obtain ⟨name, tree⟩ := place
      obtain ⟨hrest, entries, hhere, hfind⟩ := hway
      have hproper := ih hrest
      rw [hhere] at hproper
      cases hproper with
      | directory hdistinct hnames htrees => exact htrees _ (Dictionary.mem_of_find? hfind)

/-- A file is also found under the path that its path is read to. -/
theorem isFile_text_ofText {path : String} (h : d.isFile path = true) :
    d.isFile (ofText path).text = true := by
  obtain ⟨trail, text, hfollow, hhere⟩ := isFile_iff.mp h
  obtain ⟨-, hsteps, hend⟩ := follow_eq_ok_iff.mp hfollow
  have hstep : endsInStep path = true := by
    rcases hend with hstep | ⟨entries, hentries⟩
    · exact hstep
    · rw [hhere] at hentries
      cases hentries
  have hsame : d.steps (ofText path).text = d.steps path := by
    rw [Path.ofText_eq, d.steps_text (Path.headOf_mem path) fun q hq => Path.of_mem_stepPieces hq,
      steps_eq]
  have hends := Path.endsInStep_text_ofText hstep
  refine isFile_iff.mpr ⟨trail, text, ?_, hhere⟩
  refine follow_eq_ok_iff.mpr ⟨Path.ne_empty_of_endsInStep hends, ?_, Or.inl hends⟩
  rw [hsame]
  exact hsteps

/-- An entry of a directory is followed to behind the path of the directory. -/
theorem LeadsInto.follow_entry {path : String} {trail : Trail}
    {entries : List (String × FileTree)} (h : d.LeadsInto path trail entries)
    (hproper : (FileTree.directory entries).Proper) {name : String} {tree : FileTree}
    (hmem : (name, tree) ∈ entries) :
    d.follow (joinText path name) = .ok ((name, tree) :: trail) := by
  cases hproper with
  | directory hdistinct hnames htrees =>
      exact (h.follow_joinText_name (hnames _ hmem) _).mpr
        ⟨tree, Dictionary.find?_of_mem hdistinct hmem, rfl⟩

/-- A file below a place is found behind names that may be entered. -/
theorem isFile_of_mem_entriesBelow {enter : String → Bool} {tree : FileTree}
    (hproper : tree.Proper) :
    ∀ {path : String} {trail : Trail}, (d.steps path).foldlM d.step [] = .ok trail →
      d.here trail = tree → ∀ e ∈ tree.entriesBelow enter path, e.isFile = true →
        ∃ names : List String, (∀ n ∈ names, IsName n ∧ enter n = true) ∧
          e.path = names.foldl joinText path ∧ d.isFile e.path = true := by
  induction hproper with
  | file text =>
      intro path trail _ _ e he
      cases he
  | @directory entries hdistinct hnames htrees ih =>
      intro path trail hsteps hhere e he hfile
      have hleads : d.LeadsInto path trail entries := ⟨hsteps, hhere⟩
      obtain ⟨name, tree, hmem, henter, hfound⟩ := FileTree.mem_entriesAmong he
      have hfollow := hleads.follow_entry (.directory hdistinct hnames htrees) hmem
      have hname : IsName name ∧ enter name = true := ⟨hnames _ hmem, henter⟩
      rcases hfound with rfl | hbelow
      · refine ⟨[name], ?_, rfl, ?_⟩
        · intro n hn
          rw [List.mem_singleton.mp hn]
          exact hname
        · cases tree with
          | file text => exact isFile_iff.mpr ⟨_, text, hfollow, rfl⟩
          | directory inner => cases hfile
      · -- The walk goes on below the entry, with its name behind the path.
        obtain ⟨names, hall, hpath, hisFile⟩ :=
          ih _ hmem (follow_eq_ok_iff.mp hfollow).2.1 rfl e hbelow hfile
        refine ⟨name :: names, ?_, hpath, hisFile⟩
        intro n hn
        rcases List.mem_cons.mp hn with rfl | hn
        · exact hname
        · exact hall n hn

end Disk

namespace Scan

variable {d : Disk}

/-- **Found files**: what is found at or below a place is a file, under the path of the place with
    names behind it that are not left out of the walk. -/
theorem isFile_of_mem_filesAt (hproper : d.root.Proper) {place path : String}
    (h : path ∈ filesAt d place) :
    d.isFile path = true ∧ (ofText place).fileName?.all isEntered = true ∧
      ∃ names : List String, (∀ n ∈ names, IsName n ∧ isEntered n = true) ∧
        path = names.foldl joinText place := by
  rw [filesAt] at h
  split at h
  · rename_i hentered
    cases hfollow : d.follow place with
    | error fault =>
        rw [Disk.find?, hfollow] at h
        cases h
    | ok trail =>
        rw [Disk.find?, hfollow] at h
        cases hhere : d.here trail with
        | file text =>
            dsimp only at h
            rw [hhere] at h
            rw [List.mem_singleton.mp h]
            exact ⟨Disk.isFile_iff.mpr ⟨trail, text, hfollow, hhere⟩, hentered, [], by simp, rfl⟩
        | directory entries =>
            dsimp only at h
            rw [hhere] at h
            obtain ⟨e, he, hpath⟩ := List.mem_filterMap.mp h
            have hfile : e.isFile = true ∧ e.path = path := by
              split at hpath
              · rename_i hfile
                exact ⟨hfile, Option.some.inj hpath⟩
              · cases hpath
            obtain ⟨hfile, rfl⟩ := hfile
            have hsteps := (Disk.follow_eq_ok_iff.mp hfollow).2.1
            have hway : d.IsWay trail := (Disk.isWay_nil d).foldlM _ hsteps
            have htree := hway.proper_here hproper
            rw [hhere] at htree
            obtain ⟨names, hall, hnames, hisFile⟩ :=
              Disk.isFile_of_mem_entriesBelow htree hsteps hhere e he hfile
            exact ⟨hisFile, hentered, names, hall, hnames⟩
  · cases h

end Scan

end ElementCatalog
