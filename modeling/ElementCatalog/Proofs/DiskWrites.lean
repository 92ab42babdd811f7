import ElementCatalog.Proofs.DeclaredNames
import ElementCatalog.Project.Disk
import Mathlib.Data.List.Basic

/-!
# Writing files — ways through a disk and what is read after a write

Toward: a file that has been written holds its text.  The way to it may leave directories again that
it entered, so it is followed step by step on both disks.  The route:

* a path is followed on a way from the root of the disk, and its names say what is at the end of the
  way (`IsWay.at?_names`);
* putting a tree where no directory is leaves every directory in place (`at?_put_directory`);
* so each step into a directory is a step of the same names after the write (`Parallel.step`), and
  so is every way to a directory (`Parallel.foldlM`).
-/

namespace ElementCatalog

namespace FileTree

/-- What is below a tree under some names. -/
def at? : FileTree → (names : List String) → Option FileTree
  | tree, [] => some tree
  | .file _, _ :: _ => none
  | .directory entries, name :: names => (Dictionary.find? entries name).bind (at? · names)

/-- There is no directory under some names. -/
def NoDirectory (tree : FileTree) (names : List String) : Prop :=
  ∀ entries, tree.at? names ≠ some (.directory entries)

/-- Names are looked up one after another. -/
theorem at?_append (tree : FileTree) (names more : List String) :
    tree.at? (names ++ more) = (tree.at? names).bind (·.at? more) := by
  induction names generalizing tree with
  | nil => rfl
  | cons name names ih =>
      cases tree with
      | file text => rfl
      | directory entries =>
          rw [List.cons_append, at?, at?]
          cases Dictionary.find? entries name with
          | none => rfl
          | some inner => exact ih inner

/-- What is put at a place is there. -/
theorem at?_put_self (tree : FileTree) (names : List String) (content : FileTree) :
    (tree.put names content).at? names = some content := by
  induction names generalizing tree with
  | nil => rfl
  | cons name names ih =>
      rw [put.eq_def]
      dsimp only
      rw [at?, Dictionary.find?_set_self, Option.bind_some]
      exact ih _

/-- A directory that is not at or below a place stays if something is put there. -/
theorem at?_put_directory {tree content : FileTree} {target names : List String}
    {entries : List (String × FileTree)} (h : tree.at? names = some (.directory entries))
    (htarget : ¬target <+: names) :
    ∃ entries', (tree.put target content).at? names = some (.directory entries') := by
  induction target generalizing tree names with
  | nil => exact absurd List.nil_prefix htarget
  | cons first target ih =>
      cases names with
      | nil => exact ⟨_, rfl⟩
      | cons name names =>
          cases tree with
          | file text => cases h
          | directory children =>
              rw [at?] at h
              obtain ⟨inner, hinner, hat⟩ := Option.bind_eq_some_iff.mp h
              rw [put, at?]
              -- The tree is rewritten on the way to the target only.
              by_cases hname : name = first
              · subst hname
                rw [Dictionary.find?_set_self, Option.bind_some, hinner, Option.getD_some]
                exact ih hat fun hprefix => htarget (List.cons_prefix_cons.mpr ⟨rfl, hprefix⟩)
              · rw [Dictionary.find?_set_of_ne _ _ hname, hinner, Option.bind_some]
                exact ⟨entries, hat⟩

/-- What is not a directory has no directory below it. -/
theorem NoDirectory.not_prefix {tree : FileTree} {target names : List String}
    {entries : List (String × FileTree)} (h : tree.NoDirectory target)
    (hat : tree.at? names = some (.directory entries)) : ¬target <+: names := by
  rintro ⟨more, rfl⟩
  rw [at?_append] at hat
  obtain ⟨inner, hinner, hmore⟩ := Option.bind_eq_some_iff.mp hat
  cases inner with
  | directory children => exact h children hinner
  | file text => cases more <;> cases hmore

end FileTree

namespace Disk

/-- Every step of a trail leads to an entry of the directory before it. -/
def IsWay (d : Disk) : Trail → Prop
  | [] => True
  | (name, tree) :: rest =>
    d.IsWay rest ∧ ∃ entries, d.here rest = .directory entries ∧
      Dictionary.find? entries name = some tree

/-- The root is on every way. -/
theorem isWay_nil (d : Disk) : d.IsWay [] :=
  trivial

/-- The names on a trail, from the root of the disk. -/
def names (trail : Trail) : List String :=
  (trail.map Prod.fst).reverse

/-- A step starts from a directory. -/
theorem exists_entries_of_step {d : Disk} {trail after : Trail} {piece : String}
    (h : d.step trail piece = .ok after) : ∃ entries, d.here trail = .directory entries := by
  rw [step] at h
  cases hhere : d.here trail with
  | file text =>
      rw [hhere] at h
      cases h
  | directory entries => exact ⟨entries, rfl⟩

/-- A step on a way leads on a way. -/
theorem IsWay.step {d : Disk} {trail after : Trail} (h : d.IsWay trail) {piece : String}
    (hstep : d.step trail piece = .ok after) : d.IsWay after := by
  obtain ⟨entries, hhere⟩ := exists_entries_of_step hstep
  rw [Disk.step, hhere] at hstep
  dsimp only at hstep
  split at hstep
  · cases hstep
    exact h
  · split at hstep
    · cases hstep
      cases trail with
      | nil => exact h
      | cons place rest => exact h.1
    · split at hstep
      · rename_i tree hfind
        cases hstep
        exact ⟨h, entries, hhere, hfind⟩
      · cases hstep

/-- Pieces that are followed from a way lead on a way. -/
theorem IsWay.foldlM {d : Disk} (pieces : List String) : ∀ {trail after : Trail}, d.IsWay trail →
    pieces.foldlM d.step trail = .ok after → d.IsWay after := by
  induction pieces with
  | nil =>
      intro trail after h hfollow
      cases hfollow
      exact h
  | cons piece rest ih =>
      intro trail after h hfollow
      rw [List.foldlM_cons] at hfollow
      cases hstep : d.step trail piece with
      | error fault =>
          rw [hstep] at hfollow
          cases hfollow
      | ok next =>
          rw [hstep] at hfollow
          exact ih (h.step hstep) hfollow

/-- One name is added by an entry. -/
theorem names_cons (name : String) (tree : FileTree) (trail : Trail) :
    names ((name, tree) :: trail) = names trail ++ [name] := by
  rw [names, List.map_cons, List.reverse_cons]
  rfl

/-- What is at the end of a way is what is under the names on it. -/
theorem IsWay.at?_names {d : Disk} {trail : Trail} (h : d.IsWay trail) :
    d.root.at? (names trail) = some (d.here trail) := by
  induction trail with
  | nil => rfl
  | cons place rest ih =>
      obtain ⟨name, tree⟩ := place
      obtain ⟨hrest, entries, hhere, hfind⟩ := h
      rw [names_cons, FileTree.at?_append, ih hrest, hhere, Option.bind_some, FileTree.at?, hfind]
      rfl

/-- The last name is left behind with the last place. -/
theorem names_tail (trail : Trail) : names trail.tail = (names trail).dropLast := by
  rw [names, names, List.dropLast_reverse, List.map_tail]

/-- A name is stepped to if something is under it. -/
theorem IsWay.step_of_at? {d : Disk} {trail : Trail} {name : String} {tree : FileTree}
    (h : d.IsWay trail) (hstay : ¬(name = "" ∨ name = ".")) (hup : name ≠ "..")
    (hat : d.root.at? (names trail ++ [name]) = some tree) :
    d.step trail name = .ok ((name, tree) :: trail) := by
  rw [FileTree.at?_append, h.at?_names, Option.bind_some] at hat
  rw [Disk.step]
  cases hhere : d.here trail with
  | file text =>
      rw [hhere] at hat
      cases hat
  | directory entries =>
      rw [hhere, FileTree.at?] at hat
      obtain ⟨inner, hfind, hinner⟩ := Option.bind_eq_some_iff.mp hat
      cases hinner
      dsimp only
      rw [if_neg hstay, if_neg hup, hfind]

/-! ## Following a path after a write -/

section Put

variable {d : Disk} {target : List String} {content : FileTree}

/-- The disk with a tree put at a place. -/
def putting (d : Disk) (target : List String) (content : FileTree) : Disk :=
  { d with root := d.root.put target content }

/-- A way to a directory is one to a directory after something is put where none is. -/
theorem here_putting (htarget : d.root.NoDirectory target) {trail after : Trail}
    (h : d.IsWay trail) (hafter : (d.putting target content).IsWay after)
    (hnames : names after = names trail) {entries : List (String × FileTree)}
    (hhere : d.here trail = .directory entries) :
    ∃ entries', (d.putting target content).here after = .directory entries' := by
  have hat := h.at?_names
  rw [hhere] at hat
  obtain ⟨entries', hput⟩ := FileTree.at?_put_directory hat (htarget.not_prefix hat)
  refine ⟨entries', Option.some.inj ?_⟩
  rw [← hafter.at?_names, hnames]
  exact hput

/-- Two ways with the same names. -/
structure Parallel (d d' : Disk) (trail trail' : Trail) : Prop where
  way : d.IsWay trail
  way' : d'.IsWay trail'
  names_eq : names trail' = names trail

/-- A step of one way is one of the other, from a directory to where something is. -/
theorem Parallel.step_between {d' : Disk} {trail trail' next : Trail} {piece : String}
    (h : Parallel d d' trail trail') (hstep : d.step trail piece = .ok next)
    {before' : List (String × FileTree)} (hbefore' : d'.here trail' = .directory before')
    {tree' : FileTree} (hat : d'.root.at? (names next) = some tree') :
    ∃ next', d'.step trail' piece = .ok next' ∧ Parallel d d' next next' := by
  obtain ⟨before, hbefore⟩ := exists_entries_of_step hstep
  have hway := h.way.step hstep
  rw [Disk.step, hbefore] at hstep
  dsimp only at hstep
  -- A step stays, leaves the last place, or enters what is under a name.
  by_cases hstay : piece = "" ∨ piece = "."
  · rw [if_pos hstay] at hstep
    cases hstep
    refine ⟨trail', ?_, h⟩
    rw [Disk.step, hbefore']
    exact if_pos hstay
  · rw [if_neg hstay] at hstep
    by_cases hup : piece = ".."
    · rw [if_pos hup] at hstep
      cases hstep
      have hstep' : d'.step trail' piece = .ok trail'.tail := by
        rw [Disk.step, hbefore']
        dsimp only
        rw [if_neg hstay, if_pos hup]
      refine ⟨trail'.tail, hstep', hway, h.way'.step hstep', ?_⟩
      rw [names_tail, names_tail, h.names_eq]
    · rw [if_neg hup] at hstep
      cases hfind : Dictionary.find? before piece with
      | none => rw [hfind] at hstep; cases hstep
      | some tree =>
          rw [hfind] at hstep
          cases hstep
          rw [names_cons, ← h.names_eq] at hat
          have hstep' := h.way'.step_of_at? hstay hup hat
          refine ⟨_, hstep', hway, h.way'.step hstep', ?_⟩
          rw [names_cons, names_cons, h.names_eq]

/-- A step into a directory leads into a directory of the same names after something is put where
    none is. -/
theorem Parallel.step (htarget : d.root.NoDirectory target) {trail trail' next : Trail}
    {piece : String} (h : Parallel d (d.putting target content) trail trail')
    (hstep : d.step trail piece = .ok next) {entries : List (String × FileTree)}
    (hnext : d.here next = .directory entries) :
    ∃ next', (d.putting target content).step trail' piece = .ok next' ∧
      Parallel d (d.putting target content) next next' := by
  obtain ⟨before, hbefore⟩ := exists_entries_of_step hstep
  obtain ⟨before', hbefore'⟩ := here_putting htarget h.way h.way' h.names_eq hbefore
  -- What is entered is a directory, so it is there under the same names after the write.
  have hat := (h.way.step hstep).at?_names
  rw [hnext] at hat
  obtain ⟨inside, hinside⟩ := FileTree.at?_put_directory hat (htarget.not_prefix hat)
  exact h.step_between hstep hbefore' hinside

/-- What is followed further on comes from a directory if it ends in one. -/
theorem exists_entries_of_foldlM {pieces : List String} {trail last : Trail}
    (h : pieces.foldlM d.step trail = .ok last) {entries : List (String × FileTree)}
    (hlast : d.here last = .directory entries) : ∃ before, d.here trail = .directory before := by
  cases pieces with
  | nil =>
      cases h
      exact ⟨entries, hlast⟩
  | cons piece rest =>
      rw [List.foldlM_cons] at h
      cases hstep : d.step trail piece with
      | error fault => rw [hstep] at h; cases h
      | ok next => exact exists_entries_of_step hstep

/-- Pieces that lead to a directory lead to one of the same names after something is put where none
    is. -/
theorem Parallel.foldlM (htarget : d.root.NoDirectory target) {pieces : List String}
    {trail trail' last : Trail} (h : Parallel d (d.putting target content) trail trail')
    (hfollow : pieces.foldlM d.step trail = .ok last) {entries : List (String × FileTree)}
    (hlast : d.here last = .directory entries) :
    ∃ last', pieces.foldlM (d.putting target content).step trail' = .ok last' ∧
      Parallel d (d.putting target content) last last' := by
  induction pieces generalizing trail trail' with
  | nil =>
      cases hfollow
      exact ⟨trail', rfl, h⟩
  | cons piece rest ih =>
      rw [List.foldlM_cons] at hfollow
      cases hstep : d.step trail piece with
      | error fault => rw [hstep] at hfollow; cases hfollow
      | ok next =>
          rw [hstep] at hfollow
          obtain ⟨before, hnext⟩ := exists_entries_of_foldlM hfollow hlast
          obtain ⟨next', hstep', hparallel⟩ := h.step htarget hstep hnext
          obtain ⟨last', hfollow', hend⟩ := ih hparallel hfollow
          refine ⟨last', ?_, hend⟩
          rw [List.foldlM_cons, hstep']
          exact hfollow'

/-- Whether a file can be written does not depend on its text. -/
theorem isSome_write? (d : Disk) (path text text' : String) :
    (d.write? path text).isSome = (d.write? path text').isSome := by
  rw [write?, write?]
  split
  · split
    · rfl
    · split
      · rfl
      · split <;> rfl
  · rfl

/-- A file is written by putting it into the directory on its way, where no directory is. -/
theorem write?_eq_some {d' : Disk} {path text : String} (h : d.write? path text = some d') :
    ∃ front name trail entries, path ≠ "" ∧ ¬(name = "" ∨ name = ".") ∧ name ≠ ".." ∧
      (Path.joinText d.workingDirectory path).splitOn "/" = front ++ [name] ∧
      front.foldlM d.step [] = .ok trail ∧ d.here trail = .directory entries ∧
      d.root.NoDirectory (names trail ++ [name]) ∧
      d' = d.putting (names trail ++ [name]) (.file text) := by
  rw [write?] at h
  split at h
  · next trail name hfollow hname =>
      split at h
      · cases h
      · next entries hhere =>
          split at h
          · cases h
          · next hproper =>
              rw [not_or, not_or, not_or] at hproper
              obtain ⟨hpath, hempty, hstay, hup⟩ := hproper
              refine ⟨_, name, trail, entries, hpath, not_or.mpr ⟨hempty, hstay⟩, hup,
                (List.dropLast_append_getLast? name hname).symm, hfollow, hhere, ?_, ?_⟩
              · intro inside hinside
                have hway : d.IsWay trail := (isWay_nil d).foldlM _ hfollow
                rw [FileTree.at?_append, hway.at?_names, hhere, Option.bind_some,
                  FileTree.at?] at hinside
                obtain ⟨tree, hfind, htree⟩ := Option.bind_eq_some_iff.mp hinside
                cases htree
                rw [hfind] at h
                cases h
              · split at h
                · cases h
                · exact (Option.some.inj h).symm
  · cases h

/-- **Writing**: a file that has been written holds the text, also if the way to it leaves
    directories again. -/
theorem read_of_write? {d' : Disk} {path text : String} (h : d.write? path text = some d') :
    d'.read path = .ok text := by
  obtain ⟨front, name, trail, entries, hpath, hstay, hup, hpieces, hfollow, hhere, htarget, rfl⟩ :=
    write?_eq_some h
  obtain ⟨trail', hfollow', hparallel⟩ :=
    Parallel.foldlM htarget ⟨isWay_nil d, isWay_nil _, rfl⟩ hfollow hhere
  -- The way to the directory has the same names as before, and the text is put under the last one.
  have hat : (d.putting (names trail ++ [name]) (.file text)).root.at? (names trail' ++ [name]) =
      some (.file text) := by
    rw [hparallel.names_eq]
    exact FileTree.at?_put_self _ _ _
  have hlast := hparallel.way'.step_of_at? hstay hup hat
  rw [read, follow, if_neg hpath]
  show (((Path.joinText d.workingDirectory path).splitOn "/").foldlM _ _ >>= _) = _
  rw [hpieces, List.foldlM_append, hfollow']
  show ((List.foldlM _ trail' [name]) >>= _) = _
  rw [List.foldlM_cons, hlast]
  rfl

end Put

end Disk

end ElementCatalog
