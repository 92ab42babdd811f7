import ElementCatalog.Project.ConfigFile
import ElementCatalog.Proofs.DiskLocations

/-!
# Looking up the configuration file — the directories that are looked in

The search takes components off a path and looks in the directory that each of the paths leads to.
Toward: it finds the configuration file of the first of these directories that has one, if no
repository comes before it.  The route:

* a path that leads into a directory still does so without its last component
  (`LeadsInto.parent`), because its steps are fewer;
* a directory decides if it has a configuration file or is a repository, and it is asked about the
  location that its path leads to (`LeadsInto.exists_joinText_name`);
* so the search is a search through the locations of a path and of what is left of it
  (`findFrom?_eq`).
-/

namespace ElementCatalog

open ElementCatalog.Path (component stepPieces joinText ofText IsName)

namespace Disk

variable {d : Disk}

/-- The directory at a location has something of a name. -/
def has (d : Disk) (l : Location) (name : String) : Bool :=
  (d.root.at? (l.reverse ++ [name])).isSome

/-! ## Names in directories -/

/-- A directory at the end of a way has what is in it. -/
theorem LeadsInto.has_eq {path : String} {trail : Trail} {entries : List (String × FileTree)}
    (h : d.LeadsInto path trail entries) (name : String) :
    d.has (trail.map Prod.fst) name = (Dictionary.find? entries name).isSome := by
  have hnames : d.root.at? (trail.map Prod.fst).reverse = some (.directory entries) := by
    rw [← h.2]
    exact h.isWay.at?_names
  rw [has, FileTree.at?_append, hnames, Option.bind_some, FileTree.at?]
  cases Dictionary.find? entries name <;> rfl

/-- There is something of a name behind a path exactly if the directory has it. -/
theorem LeadsInto.exists_joinText_name {path : String} {trail : Trail}
    {entries : List (String × FileTree)} (h : d.LeadsInto path trail entries) {n : String}
    (hn : IsName n) : d.exists (joinText path n) = d.has (trail.map Prod.fst) n := by
  rw [h.has_eq, Disk.exists, Disk.find?]
  cases hfind : Dictionary.find? entries n with
  | some tree =>
      have hfollow := (h.follow_joinText_name hn _).mpr ⟨tree, hfind, rfl⟩
      rw [hfollow]
      rfl
  | none =>
      cases hfollow : d.follow (joinText path n) with
      | error fault => rfl
      | ok after =>
          obtain ⟨tree, htree, -⟩ := (h.follow_joinText_name hn after).mp hfollow
          rw [hfind] at htree
          cases htree

/-- What a directory has lies at the location behind that of the directory. -/
theorem LeadsInto.location_joinText_name {path : String} {trail : Trail}
    {entries : List (String × FileTree)} (h : d.LeadsInto path trail entries) {n : String}
    (hn : IsName n) (hhas : d.has (trail.map Prod.fst) n = true) :
    d.location? (joinText path n) = some (n :: trail.map Prod.fst) := by
  rw [h.has_eq] at hhas
  obtain ⟨tree, htree⟩ := Option.isSome_iff_exists.mp hhas
  rw [location?, (h.follow_joinText_name hn _).mpr ⟨tree, htree, rfl⟩]
  rfl

/-! ## Fewer steps -/

/-- Steps into a directory lead from a directory to the next. -/
theorem leadsInto_of_concat {front : List String} {last : String} {after : Trail}
    (h : (front ++ [last]).foldlM d.step [] = .ok after) :
    ∃ trail entries, front.foldlM d.step [] = .ok trail ∧ d.here trail = .directory entries := by
  obtain ⟨trail, hfront, hstep⟩ := foldlM_concat.mp h
  obtain ⟨entries, hentries⟩ := exists_entries_of_step hstep
  exact ⟨trail, entries, hfront, hentries⟩

/-- The directory that a path into a directory lies in is led into as well. -/
theorem LeadsInto.parent {path : String} {trail : Trail} {entries : List (String × FileTree)}
    (h : d.LeadsInto path trail entries) {parent : Path}
    (hparent : (ofText path).parent? = some parent) :
    ∃ trail' entries', d.LeadsInto parent.text trail' entries' := by
  have hhead := Path.headOf_mem path
  have hpieces := fun q (hq : q ∈ stepPieces path) => Path.of_mem_stepPieces hq
  obtain ⟨hsteps, hhere⟩ := h
  rw [steps_eq] at hsteps
  rw [Path.ofText_eq] at hparent
  rcases List.eq_nil_or_concat' (stepPieces path) with hnil | ⟨front, last, hconcat⟩
  · -- Without a step, only a single dot can be taken off.
    rw [hnil] at hparent hsteps
    rcases Path.eq_of_mem_heads hhead with hhead | hhead | hhead
    · rw [hhead] at hparent
      cases hparent
    · rw [hhead] at hparent hsteps
      cases hparent
      refine ⟨trail, entries, ?_, hhere⟩
      have hempty : d.steps (⟨[] ++ [].map component⟩ : Path).text =
          stepPieces d.workingDirectory ++ [] := d.steps_text (by decide) (by simp)
      show (d.steps (⟨[] ++ [].map component⟩ : Path).text).foldlM d.step [] = .ok trail
      rw [hempty]
      exact hsteps
    · rw [hhead] at hparent
      cases hparent
  · rw [hconcat] at hparent hsteps hpieces
    rw [← List.append_assoc] at hsteps
    obtain ⟨trail', entries', hfront, hentries⟩ := leadsInto_of_concat hsteps
    refine ⟨trail', entries', ?_, hentries⟩
    rw [List.map_append, List.map_singleton, ← List.append_assoc,
      Path.parent?_concat _ (Path.component_ne_root last)] at hparent
    have hfewer := fun q hq => hpieces q (List.mem_append_left _ hq)
    rw [← Option.some.inj hparent, d.steps_text hhead hfewer]
    exact hfront

end Disk

namespace ConfigFile

/-! ## What is found -/

/-- What a directory decides about the search: its configuration file is found, or a repository ends
    the search. -/
def lookIn? (d : Disk) (l : Location) : Option (Option Location) :=
  if d.has l fileName then some (some (fileName :: l))
  else if d.has l ".git" then some none
  else none

/-- The configuration file that the first of some directories that decides has. -/
def firstFound? (d : Disk) (ls : List Location) : Option Location :=
  (ls.findSome? (lookIn? d)).join

/-- The locations that are looked in, as seen from a directory. -/
def lookedIn (home : Location) (start : String) : List Location :=
  (ofText start).climb.map (·.locationFrom home)

/-- The name of configuration files is a name. -/
theorem isName_fileName : IsName fileName := by
  decide +kernel

/-- The name of repositories is a name. -/
theorem isName_git : IsName ".git" := by
  decide +kernel

/-- The search goes on in the directory that a path lies in. -/
theorem lookedIn_eq (home : Location) (start : String) :
    lookedIn home start = (ofText start).locationFrom home ::
      match (ofText start).parent? with
      | some parent => lookedIn home parent.text
      | none => [] := by
  rw [lookedIn, Path.climb_eq, List.map_cons]
  cases hparent : (ofText start).parent? with
  | none => rfl
  | some parent =>
      have hread : ofText parent.text = parent :=
        ((Path.isSpelled_ofText start).parent hparent).ofText_text
      dsimp only
      rw [lookedIn, hread]

/-- The parent of a path has fewer components. -/
theorem length_parent {p parent : Path} (h : p.parent? = some parent) :
    parent.components.length < p.components.length := by
  rw [Path.parent?] at h
  split at h
  · cases h
  · cases h
  · rename_i last hlast
    rw [← Option.some.inj h, List.length_dropLast]
    have hne : p.components ≠ [] := by
      intro hnil
      rw [hnil] at hlast
      cases hlast
    have := List.length_pos_of_ne_nil hne
    omega

/-- **What is found**: the search finds the configuration file of the first directory that decides,
    of those that the path of its start and what is left of it lead to. -/
theorem findFrom?_eq (d : Disk) (fuel : Nat) :
    ∀ {directory : String} {trail : Disk.Trail} {entries : List (String × FileTree)},
      d.LeadsInto directory trail entries → (ofText directory).components.length < fuel →
        (findFrom? d fuel directory).map d.location? =
          (firstFound? d (lookedIn d.home directory)).map some := by
  induction fuel with
  | zero =>
      intro directory trail entries h hfuel
      omega
  | succ fuel ih =>
      intro directory trail entries h hfuel
      have hlocation := h.location_eq
      rw [findFrom?, lookedIn_eq, ← hlocation, firstFound?, List.findSome?_cons, lookIn?,
        h.exists_joinText_name isName_fileName, h.exists_joinText_name isName_git]
      cases hconfig : d.has (trail.map Prod.fst) fileName with
      | true =>
          show some (d.location? (joinText directory fileName)) = _
          rw [h.location_joinText_name isName_fileName hconfig]
          rfl
      | false =>
          cases hgit : d.has (trail.map Prod.fst) ".git" with
          | true => rfl
          | false =>
              cases hparent : (ofText directory).parent? with
              | none => rfl
              | some parent =>
                  -- Neither file nor repository: the search goes on where the parent leads.
                  obtain ⟨trail', entries', hleads⟩ := h.parent hparent
                  have hread : ofText parent.text = parent :=
                    ((Path.isSpelled_ofText directory).parent hparent).ofText_text
                  have hless := length_parent hparent
                  exact ih hleads (by rw [hread]; omega)

/-- The search of a directory that a path leads to. -/
theorem find?_eq {d : Disk} {start : String} {trail : Disk.Trail}
    {entries : List (String × FileTree)} (h : d.LeadsInto start trail entries) :
    (find? d start).map d.location? = (firstFound? d (lookedIn d.home start)).map some :=
  findFrom?_eq d _ h (Nat.lt_succ_self _)

end ConfigFile

end ElementCatalog
