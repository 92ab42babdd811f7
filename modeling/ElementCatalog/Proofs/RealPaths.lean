import ElementCatalog.Proofs.AddedFiles
import ElementCatalog.Proofs.ConfigLookup
import ElementCatalog.Proofs.FoundFiles
import ElementCatalog.Proofs.NormalPaths

/-!
# Real paths — directories by their names

Toward: the plain path of a directory leads to it from anywhere, and seen from the directory a name
that is free can be written.  The route: the names on a way are followed along it
(`IsWay.foldlM_names`), and they are the steps of the plain path (`steps_plainPath`); a name alone
is followed from the working directory (`write?_name`).
-/

namespace ElementCatalog.Disk

open ElementCatalog.Path (IsName ofText joinText stepPieces takesStep)

variable {d : Disk} {trail : Trail} {entries : List (String × FileTree)}

/-- The plain absolute path of names. -/
def plainPath (names : List String) : String :=
  "/" ++ "/".intercalate names

/-- What is followed has the plain path of its way. -/
theorem realPath?_of_follow {path : String} (h : d.follow path = .ok trail) :
    d.realPath? path = some (plainPath (names trail)) := by
  rw [realPath?, h]
  rfl

/-- A plain path is the text of its names. -/
theorem plainPath_eq_text (names : List String) :
    plainPath names = (⟨.root :: names.map .name⟩ : Path).text := by
  have htexts : (names.map PathComponent.name).map PathComponent.text = names := by
    rw [List.map_map]
    exact List.map_id names
  show _ = "/" ++ "/".intercalate ((names.map PathComponent.name).map PathComponent.text)
  rw [htexts, plainPath]

/-- A plain path is read to its names. -/
theorem ofText_plainPath {names : List String} (h : ∀ n ∈ names, IsName n) :
    ofText (plainPath names) = ⟨.root :: names.map .name⟩ := by
  rw [plainPath_eq_text]
  exact Path.IsNormal.ofText_text ⟨[.root], by decide, names, h, rfl⟩

/-- On a disk with proper names, those on a way are. -/
theorem IsWay.isName (hway : d.IsWay trail) (hproper : d.root.Proper) :
    ∀ n ∈ names trail, IsName n := by
  induction trail with
  | nil => nofun
  | cons place rest ih =>
      obtain ⟨name, tree⟩ := place
      obtain ⟨hrest, inside, hhere, hfind⟩ := hway
      have hdirectory := hrest.proper_here hproper
      rw [hhere] at hdirectory
      cases hdirectory with
      | directory hdistinct hnames htrees =>
          intro n hn
          rw [names_cons] at hn
          rcases List.mem_append.mp hn with hn | hn
          · exact ih hrest n hn
          · rw [List.mem_singleton.mp hn]
            exact hnames _ (Dictionary.mem_of_find? hfind)

/-- The names on a way are followed along it. -/
theorem IsWay.foldlM_names (hway : d.IsWay trail) (h : ∀ n ∈ names trail, IsName n) :
    (names trail).foldlM d.step [] = .ok trail := by
  induction trail with
  | nil => rfl
  | cons place rest ih =>
      obtain ⟨name, tree⟩ := place
      rw [names_cons] at h ⊢
      have hname : IsName name := h name (List.mem_append_right _ List.mem_cons_self)
      have hat := hway.at?_names
      rw [names_cons] at hat
      exact foldlM_concat.mpr ⟨rest, ih hway.1 fun n hn => h n (List.mem_append_left _ hn),
        hway.1.step_of_at? (not_or.mpr ⟨hname.nonempty, hname.notHere⟩) hname.notUp hat⟩

/-- The steps of a plain path are its names, wherever they are taken from. -/
theorem steps_plainPath (d : Disk) {names : List String} (h : ∀ n ∈ names, IsName n) :
    d.steps (plainPath names) = names := by
  rw [plainPath_eq_text, ← Path.map_component_of_isName h]
  exact d.steps_text (show [.root] ∈ Path.heads by decide) fun n hn => (h n hn).isStep

/-- The plain path of a way leads along it. -/
theorem IsWay.leadsInto_plainPath (hway : d.IsWay trail) (h : ∀ n ∈ names trail, IsName n)
    (hhere : d.here trail = .directory entries) :
    d.LeadsInto (plainPath (names trail)) trail entries := by
  refine ⟨?_, hhere⟩
  rw [d.steps_plainPath h]
  exact hway.foldlM_names h

/-- A path that leads into a directory is followed, unless it is empty. -/
theorem LeadsInto.follow_eq {path : String} (h : d.LeadsInto path trail entries)
    (hpath : path ≠ "") : d.follow path = .ok trail :=
  follow_eq_ok_iff.mpr ⟨hpath, h.1, Or.inr ⟨entries, h.2⟩⟩

/-- What a path leads into is a directory. -/
theorem LeadsInto.isDirectory_eq {path : String} (h : d.LeadsInto path trail entries)
    (hpath : path ≠ "") : d.isDirectory path = true := by
  rw [isDirectory, find?, h.follow_eq hpath]
  dsimp only
  rw [h.2]

/-- A plain path is not empty. -/
theorem plainPath_ne_empty (names : List String) : plainPath names ≠ "" := by
  intro h
  have htext := congrArg String.toList h
  rw [plainPath, String.toList_append] at htext
  cases htext

/-- The names on a way, from its end. -/
theorem reverse_names (trail : Trail) : (names trail).reverse = trail.map Prod.fst := by
  rw [names, List.reverse_reverse]

/-- A file is there in the tree of the disk, under the names to its location. -/
theorem exists_at?_of_isFile {path : String} {names : List String}
    (hlocation : (ofText path).locationFrom d.home = names.reverse)
    (hfile : d.isFile path = true) : ∃ text, d.root.at? names = some (.file text) := by
  obtain ⟨after, text, hfollow, hhere⟩ := isFile_iff.mp hfile
  have hsteps := (follow_eq_ok_iff.mp hfollow).2.1
  have hway : d.IsWay after := (isWay_nil d).foldlM _ hsteps
  have hnames : Disk.names after = names := by
    rw [Disk.names, location_of_steps hsteps, hlocation, List.reverse_reverse]
  have hat := hway.at?_names
  rw [hnames, hhere] at hat
  exact ⟨text, hat⟩

/-! ## Working directories -/

/-- The disk as it is seen from a directory. -/
def within (d : Disk) (directory : String) : Disk :=
  { d with workingDirectory := directory }

/-- The steps of the empty path are those of the working directory. -/
theorem steps_empty (d : Disk) : d.steps "" = stepPieces d.workingDirectory := by
  have hempty : stepPieces "" = [] := by
    rw [stepPieces, Text.splitOn_slash]
    decide +kernel
  rw [steps, Path.stepPieces_joinText (by decide), hempty, List.append_nil]

/-- Seen from a directory, the empty path leads into it. -/
theorem LeadsInto.within {path : String} (h : d.LeadsInto path trail entries)
    (hslash : path.startsWith "/" = true) : (d.within path).LeadsInto "" trail entries := by
  refine ⟨?_, h.2⟩
  have hsteps : (d.within path).steps "" = d.steps path := by
    rw [steps_empty, steps, joinText, if_pos hslash]
    rfl
  rw [hsteps]
  exact h.1

/-- A name is behind the empty path. -/
theorem joinText_empty {n : String} (hn : IsName n) : joinText "" n = n := by
  rw [joinText, hn.startsWith_eq_false]
  exact String.empty_append

/-- A name is there in the working directory exactly if it is one of its entries. -/
theorem LeadsInto.exists_name (h : d.LeadsInto "" trail entries) {n : String} (hn : IsName n) :
    d.exists n = (Dictionary.find? entries n).isSome := by
  have hexists := h.exists_joinText_name hn
  rw [joinText_empty hn, h.has_eq] at hexists
  exact hexists

/-- A name that is free in the working directory can be written. -/
theorem LeadsInto.write?_name (h : d.LeadsInto "" trail entries) {n : String} (hn : IsName n)
    (habsent : Dictionary.find? entries n = none) (text : String) :
    d.write? n text = some (d.adding (names trail) n text) := by
  obtain ⟨front, hfront, hpieces⟩ := Path.exists_front_joinText d.workingDirectory
  have hsplit := hpieces n hn.startsWith_eq_false
  rw [hn.splitOn_eq] at hsplit
  -- The pieces before the name lead where those of the working directory lead.
  have hfollow : front.foldlM d.step [] = .ok trail := by
    refine (foldlM_takesStep_iff front (Or.inr ⟨entries, h.2⟩)).mp ?_
    have hsteps : front.filter takesStep = d.steps "" := by
      rw [steps_empty, stepPieces]
      rcases hfront with heq | heq
      · rw [heq]
      · rw [heq, List.filter_append]
        exact (List.append_nil _).symm
    rw [hsteps]
    exact h.1
  rw [write?, hsplit, List.dropLast_concat, List.getLast?_concat, hfollow]
  dsimp only
  rw [h.2]
  dsimp only
  rw [if_neg (by simp [hn.nonempty, hn.notHere, hn.notUp]), habsent]
  rfl

end ElementCatalog.Disk
