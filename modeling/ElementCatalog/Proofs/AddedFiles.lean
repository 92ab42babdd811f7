import ElementCatalog.Proofs.DiskLocations

/-!
# Added files — what one more file changes

A file is added to a directory under a name that is free.  Toward: every path leads where it led
before, or now leads to the new file; files that were there are read as before, and the directory
lists the new file last.  The route:

* under any names but those of the new file there is what was there, or a directory where one was
  (`Vacant.sameKind`);
* so each step on one of the two disks is a step of the same names on the other, unless it enters the
  new file (`Parallel.step_added`, `Parallel.step_of_added`), and so is every path that is followed.
-/

namespace ElementCatalog

namespace FileTree

/-- A directory with its entries, and a name that is not among them. -/
structure Vacant (tree : FileTree) (front : List String) (name : String)
    (entries : List (String × FileTree)) : Prop where
  directory : tree.at? front = some (.directory entries)
  absent : Dictionary.find? entries name = none

/-- The same is at two places, or directories are. -/
inductive SameKind : Option FileTree → Option FileTree → Prop
  | same (found : Option FileTree) : SameKind found found
  | directories (entries entries' : List (String × FileTree)) :
    SameKind (some (.directory entries)) (some (.directory entries'))

variable {tree : FileTree} {front : List String} {name : String}
  {entries : List (String × FileTree)}

/-- Nothing is under a free name. -/
theorem Vacant.at?_eq_none (h : tree.Vacant front name entries) (more : List String) :
    tree.at? (front ++ name :: more) = none := by
  rw [at?_append, h.directory, Option.bind_some, at?, h.absent]
  rfl

/-- What is put under a free name is listed last. -/
theorem Vacant.at?_put_front (h : tree.Vacant front name entries) (content : FileTree) :
    (tree.put (front ++ [name]) content).at? front =
      some (.directory (entries ++ [(name, content)])) := by
  induction front generalizing tree with
  | nil =>
      obtain ⟨hdirectory, habsent⟩ := h
      cases hdirectory
      rw [List.nil_append, put, put,
        Dictionary.set_of_notMem (Dictionary.find?_eq_none_iff.mp habsent)]
      rfl
  | cons first front ih =>
      cases tree with
      | file text => cases h.directory
      | directory children =>
          obtain ⟨inner, hinner, hat⟩ := Option.bind_eq_some_iff.mp h.directory
          rw [List.cons_append, put, at?, Dictionary.find?_set_self, Option.bind_some, hinner,
            Option.getD_some]
          exact ih ⟨hat, h.absent⟩

/-- Under other names there is what was there, or a directory where one was. -/
theorem Vacant.sameKind (h : tree.Vacant front name entries) (content : FileTree)
    {names : List String} (hother : ¬front ++ [name] <+: names) :
    SameKind (tree.at? names) ((tree.put (front ++ [name]) content).at? names) := by
  induction front generalizing tree names with
  | nil =>
      obtain ⟨hdirectory, -⟩ := h
      cases hdirectory
      cases names with
      | nil => exact .directories _ _
      | cons n rest =>
          have hne : n ≠ name := by
            rintro rfl
            exact hother ⟨rest, rfl⟩
          rw [List.nil_append, put, at?, at?, Dictionary.find?_set_of_ne _ _ hne]
          exact .same _
  | cons first front ih =>
      cases tree with
      | file text => cases h.directory
      | directory children =>
          cases names with
          | nil => exact .directories _ _
          | cons n rest =>
              obtain ⟨inner, hinner, hat⟩ := Option.bind_eq_some_iff.mp h.directory
              rw [List.cons_append, put, at?, at?]
              -- The tree is rewritten on the way to the free name only.
              by_cases hn : n = first
              · subst hn
                rw [Dictionary.find?_set_self, Option.bind_some, hinner, Option.bind_some,
                  Option.getD_some]
                exact ih ⟨hat, h.absent⟩ fun hprefix =>
                  hother (List.cons_prefix_cons.mpr ⟨rfl, hprefix⟩)
              · rw [Dictionary.find?_set_of_ne _ _ hn]
                exact .same _

/-- Something is at one of the places exactly if something is at the other. -/
theorem SameKind.exists_iff {found found' : Option FileTree} (h : SameKind found found') :
    (∃ tree, found = some tree) ↔ ∃ tree, found' = some tree := by
  cases h with
  | same => exact Iff.rfl
  | directories entries entries' => exact ⟨fun _ => ⟨_, rfl⟩, fun _ => ⟨_, rfl⟩⟩

/-- A file is at one of the places exactly if it is at the other. -/
theorem SameKind.file_iff {found found' : Option FileTree} (h : SameKind found found')
    (text : Option String) : found = some (.file text) ↔ found' = some (.file text) := by
  cases h with
  | same => exact Iff.rfl
  | directories entries entries' =>
      constructor
      · intro heq
        cases heq
      · intro heq
        cases heq

end FileTree

namespace Disk

variable {d : Disk} {front : List String} {name : String} {entries : List (String × FileTree)}
  {text : String}

/-- The disk with a file added to a directory. -/
def adding (d : Disk) (front : List String) (name text : String) : Disk :=
  d.putting (front ++ [name]) (.file (some text))

/-! ## Steps -/

/-- Something is at the end of a way, so the names on it are not below a free name. -/
theorem IsWay.not_prefix (h : d.root.Vacant front name entries) {trail : Trail}
    (hway : d.IsWay trail) : ¬front ++ [name] <+: names trail := by
  rintro ⟨more, hmore⟩
  have hat := hway.at?_names
  rw [← hmore, List.append_assoc, List.singleton_append, h.at?_eq_none more] at hat
  cases hat

/-- Two ways start at the roots. -/
theorem parallel_nil (d d' : Disk) : Parallel d d' [] [] :=
  ⟨isWay_nil d, isWay_nil d', rfl⟩

/-- Two ways are parallel both ways around. -/
theorem Parallel.symm {d' : Disk} {trail trail' : Trail} (h : Parallel d d' trail trail') :
    Parallel d' d trail' trail :=
  ⟨h.way', h.way, h.names_eq.symm⟩

/-- At the ends of ways of the same names there is the same, or directories are. -/
theorem Parallel.sameKind (h : d.root.Vacant front name entries) {trail trail' : Trail}
    (hparallel : Parallel d (d.adding front name text) trail trail') :
    FileTree.SameKind (some (d.here trail)) (some ((d.adding front name text).here trail')) := by
  have hkind := h.sameKind (.file (some text)) (hparallel.way.not_prefix h)
  rw [← hparallel.way.at?_names, ← hparallel.way'.at?_names, hparallel.names_eq]
  exact hkind

/-- A directory is at the end of one way exactly if one is at the end of the other. -/
theorem Parallel.directory_iff (h : d.root.Vacant front name entries) {trail trail' : Trail}
    (hparallel : Parallel d (d.adding front name text) trail trail') :
    (∃ inside, d.here trail = .directory inside) ↔
      ∃ inside, (d.adding front name text).here trail' = .directory inside := by
  have hkind := hparallel.sameKind h
  generalize d.here trail = here at hkind ⊢
  generalize (d.adding front name text).here trail' = here' at hkind ⊢
  cases hkind with
  | same => exact Iff.rfl
  | directories inside inside' => exact ⟨fun _ => ⟨_, rfl⟩, fun _ => ⟨_, rfl⟩⟩

/-- A step leads to the same names with the file added. -/
theorem Parallel.step_added (h : d.root.Vacant front name entries) {trail trail' next : Trail}
    {piece : String} (hparallel : Parallel d (d.adding front name text) trail trail')
    (hstep : d.step trail piece = .ok next) :
    ∃ next', (d.adding front name text).step trail' piece = .ok next' ∧
      Parallel d (d.adding front name text) next next' := by
  have hway := hparallel.way.step hstep
  have hkind := h.sameKind (.file (some text)) (hway.not_prefix h)
  obtain ⟨tree', hat⟩ := hkind.exists_iff.mp ⟨_, hway.at?_names⟩
  obtain ⟨before', hbefore'⟩ := (hparallel.directory_iff h).mp (exists_entries_of_step hstep)
  exact hparallel.step_between hstep hbefore' hat

/-- A step with the file added enters the file, or leads to the same names without it. -/
theorem Parallel.step_of_added (h : d.root.Vacant front name entries) {trail trail' next' : Trail}
    {piece : String} (hparallel : Parallel d (d.adding front name text) trail trail')
    (hstep : (d.adding front name text).step trail' piece = .ok next') :
    names next' = front ++ [name] ∨ ∃ next, d.step trail piece = .ok next ∧
      Parallel d (d.adding front name text) next next' := by
  have hway' := hparallel.way'.step hstep
  obtain ⟨before, hbefore⟩ := (hparallel.directory_iff h).mpr (exists_entries_of_step hstep)
  by_cases hprefix : front ++ [name] <+: names next'
  · -- What is entered is the file, because nothing is below it.
    obtain ⟨more, hmore⟩ := hprefix
    have hat := hway'.at?_names
    have hput := FileTree.at?_put_self d.root (front ++ [name]) (.file (some text))
    rw [← hmore, FileTree.at?_append] at hat
    obtain ⟨inner, hinner, hbelow⟩ := Option.bind_eq_some_iff.mp hat
    cases hinner.symm.trans hput
    cases more with
    | nil =>
        rw [List.append_nil] at hmore
        exact Or.inl hmore.symm
    | cons n rest => cases hbelow
  · obtain ⟨tree, hat⟩ :=
      (h.sameKind (.file (some text)) hprefix).exists_iff.mpr ⟨_, hway'.at?_names⟩
    obtain ⟨next, hnext, hback⟩ := hparallel.symm.step_between hstep hbefore hat
    exact Or.inr ⟨next, hnext, hback.symm⟩

/-- What is at the end of a way to the new file is the file. -/
theorem IsWay.here_added {trail' : Trail} (hway' : (d.adding front name text).IsWay trail')
    (hnames : names trail' = front ++ [name]) :
    (d.adding front name text).here trail' = .file (some text) := by
  have hat := hway'.at?_names
  rw [hnames] at hat
  have hput := FileTree.at?_put_self d.root (front ++ [name]) (.file (some text))
  exact Option.some.inj (hat.symm.trans hput)

/-- Pieces that are followed lead to the same names with the file added. -/
theorem Parallel.foldlM_added (h : d.root.Vacant front name entries) (pieces : List String) :
    ∀ {trail trail' last : Trail}, Parallel d (d.adding front name text) trail trail' →
      pieces.foldlM d.step trail = .ok last →
        ∃ last', pieces.foldlM (d.adding front name text).step trail' = .ok last' ∧
          Parallel d (d.adding front name text) last last' := by
  induction pieces with
  | nil =>
      intro trail trail' last hparallel hfollow
      cases hfollow
      exact ⟨trail', rfl, hparallel⟩
  | cons piece rest ih =>
      intro trail trail' last hparallel hfollow
      rw [List.foldlM_cons] at hfollow
      cases hstep : d.step trail piece with
      | error fault =>
          rw [hstep] at hfollow
          cases hfollow
      | ok next =>
          rw [hstep] at hfollow
          obtain ⟨next', hstep', hnext⟩ := hparallel.step_added h hstep
          obtain ⟨last', hfollow', hlast⟩ := ih hnext hfollow
          refine ⟨last', ?_, hlast⟩
          rw [List.foldlM_cons, hstep']
          exact hfollow'

/-- Pieces that are followed with the file added end in the file, or lead to the same names without
    it. -/
theorem Parallel.foldlM_of_added (h : d.root.Vacant front name entries) (pieces : List String) :
    ∀ {trail trail' last' : Trail}, Parallel d (d.adding front name text) trail trail' →
      pieces.foldlM (d.adding front name text).step trail' = .ok last' →
        names last' = front ++ [name] ∨ ∃ last, pieces.foldlM d.step trail = .ok last ∧
          Parallel d (d.adding front name text) last last' := by
  induction pieces with
  | nil =>
      intro trail trail' last' hparallel hfollow
      cases hfollow
      exact Or.inr ⟨trail, rfl, hparallel⟩
  | cons piece rest ih =>
      intro trail trail' last' hparallel hfollow
      rw [List.foldlM_cons] at hfollow
      cases hstep : (d.adding front name text).step trail' piece with
      | error fault =>
          rw [hstep] at hfollow
          cases hfollow
      | ok next' =>
          rw [hstep] at hfollow
          rcases hparallel.step_of_added h hstep with hnames | ⟨next, hnext, hparallel'⟩
          · -- From a file no step is taken.
            have hhere := (hparallel.way'.step hstep).here_added hnames
            cases rest with
            | nil =>
                cases hfollow
                exact Or.inl hnames
            | cons second rest =>
                change (second :: rest).foldlM (d.adding front name text).step next' = _ at hfollow
                rw [List.foldlM_cons, Disk.step, hhere] at hfollow
                cases hfollow
          · rcases ih hparallel' hfollow with hnames | ⟨last, hlast, hend⟩
            · exact Or.inl hnames
            · refine Or.inr ⟨last, ?_, hend⟩
              rw [List.foldlM_cons, hnext]
              exact hlast

/-! ## Paths -/

/-- A path that is followed leads to the same names with the file added. -/
theorem follow_added (h : d.root.Vacant front name entries) (text : String) {path : String}
    {trail : Trail} (hfollow : d.follow path = .ok trail) :
    ∃ trail', (d.adding front name text).follow path = .ok trail' ∧
      Parallel d (d.adding front name text) trail trail' := by
  rw [follow] at hfollow
  split at hfollow
  · cases hfollow
  · rename_i hpath
    obtain ⟨trail', hfollow', hparallel⟩ :=
      Parallel.foldlM_added h _ (parallel_nil d _) hfollow
    refine ⟨trail', ?_, hparallel⟩
    rw [follow, if_neg hpath]
    exact hfollow'

/-- A path that is followed with the file added leads to the file, or to the same names without
    it. -/
theorem follow_of_added (h : d.root.Vacant front name entries) {path : String} {trail' : Trail}
    (hfollow : (d.adding front name text).follow path = .ok trail') :
    names trail' = front ++ [name] ∨ ∃ trail, d.follow path = .ok trail ∧
      Parallel d (d.adding front name text) trail trail' := by
  rw [follow] at hfollow
  split at hfollow
  · cases hfollow
  · rename_i hpath
    rcases Parallel.foldlM_of_added h _ (parallel_nil d _) hfollow with
      hnames | ⟨trail, hback, hparallel⟩
    · exact Or.inl hnames
    · refine Or.inr ⟨trail, ?_, hparallel⟩
      rw [follow, if_neg hpath]
      exact hback

/-- The names on a way to a place. -/
theorem map_fst_of_names {trail : Trail} {names' : List String} (h : names trail = names') :
    trail.map Prod.fst = names'.reverse := by
  rw [← h, names, List.reverse_reverse]

/-- A file is read where a path leads to it. -/
theorem read_of_follow {path : String} {trail : Trail} {found : Option String}
    (hfollow : d.follow path = .ok trail) (hhere : d.here trail = .file found) :
    d.read path = found.elim (.error .notText) .ok := by
  rw [read, hfollow]
  simp only [bind, Except.bind, hhere]
  cases found <;> rfl

/-- A path leads to the new file. -/
def LeadsToAdded (d : Disk) (front : List String) (name text path : String) : Prop :=
  ∃ trail, (d.adding front name text).follow path = .ok trail ∧ names trail = front ++ [name]

/-- The new file is read. -/
theorem LeadsToAdded.read_eq {path : String} (h : LeadsToAdded d front name text path) :
    (d.adding front name text).isFile path = true ∧
      (d.adding front name text).read path = .ok text := by
  obtain ⟨trail, hfollow, hnames⟩ := h
  have hway : (d.adding front name text).IsWay trail := by
    have hsteps := (follow_eq_ok_iff.mp hfollow).2.1
    exact (isWay_nil _).foldlM _ hsteps
  have hhere := hway.here_added hnames
  refine ⟨isFile_iff.mpr ⟨trail, _, hfollow, hhere⟩, ?_⟩
  exact read_of_follow hfollow hhere

/-- A path leads to the new file only from its location. -/
theorem LeadsToAdded.location_eq {path : String} (h : LeadsToAdded d front name text path) :
    (Path.ofText path).locationFrom d.home = name :: front.reverse := by
  obtain ⟨trail, hfollow, hnames⟩ := h
  have hlocation := location_of_steps (follow_eq_ok_iff.mp hfollow).2.1
  rw [map_fst_of_names hnames, List.reverse_append] at hlocation
  exact hlocation.symm

/-- A file that was there is read as before. -/
theorem read_added (h : d.root.Vacant front name entries) {path : String}
    (hfile : d.isFile path = true) : (d.adding front name text).isFile path = true ∧
      (d.adding front name text).read path = d.read path := by
  obtain ⟨trail, found, hfollow, hhere⟩ := isFile_iff.mp hfile
  obtain ⟨trail', hfollow', hparallel⟩ := follow_added h text hfollow
  have hkind := hparallel.sameKind h
  rw [hhere] at hkind
  have hhere' := Option.some.inj ((hkind.file_iff found).mp rfl)
  refine ⟨isFile_iff.mpr ⟨trail', found, hfollow', hhere'⟩, ?_⟩
  exact (read_of_follow hfollow' hhere').trans (read_of_follow hfollow hhere).symm

/-- A path leads to a file exactly if it did before or leads to the new one. -/
theorem isFile_added_iff (h : d.root.Vacant front name entries) {path : String} :
    (d.adding front name text).isFile path = true ↔
      d.isFile path = true ∨ LeadsToAdded d front name text path := by
  constructor
  · intro hfile'
    obtain ⟨trail', found, hfollow', hhere'⟩ := isFile_iff.mp hfile'
    rcases follow_of_added h hfollow' with hnames | ⟨trail, hfollow, hparallel⟩
    · exact Or.inr ⟨trail', hfollow', hnames⟩
    · have hkind := hparallel.sameKind h
      rw [hhere'] at hkind
      exact Or.inl (isFile_iff.mpr
        ⟨trail, found, hfollow, Option.some.inj ((hkind.file_iff found).mpr rfl)⟩)
  · rintro (hfile | hnew)
    · exact (read_added h hfile).1
    · exact hnew.read_eq.1

/-- A path that does not end in a step has its plain path as before. -/
theorem realPath?_added (h : d.root.Vacant front name entries) {path : String}
    (hstays : Path.endsInStep path = false) :
    (d.adding front name text).realPath? path = d.realPath? path := by
  have hplain {trail trail' : Trail}
      (hparallel : Parallel d (d.adding front name text) trail trail') :
      trail'.map Prod.fst = trail.map Prod.fst := by
    rw [map_fst_of_names hparallel.names_eq, names, List.reverse_reverse]
  rw [realPath?, realPath?]
  cases hfollow : d.follow path with
  | ok trail =>
      obtain ⟨trail', hfollow', hparallel⟩ := follow_added h text hfollow
      rw [hfollow']
      dsimp only
      rw [hplain hparallel]
  | error fault =>
      cases hfollow' : (d.adding front name text).follow path with
      | error fault' => rfl
      | ok trail' =>
          rcases follow_of_added h hfollow' with hnames | ⟨trail, hback, -⟩
          · -- The new file is no directory, so the path would have to end in a step.
            obtain ⟨-, hsteps, hend⟩ := follow_eq_ok_iff.mp hfollow'
            have hhere := ((isWay_nil _).foldlM _ hsteps).here_added hnames
            rcases hend with hstep | ⟨inside, hinside⟩
            · rw [hstays] at hstep
              cases hstep
            · rw [hhere] at hinside
              cases hinside
          · rw [hfollow] at hback
            cases hback

/-- A path to the directory of the new file leads there, and the file is listed last. -/
theorem LeadsInto.added {path : String} {trail : Trail} (h : d.LeadsInto path trail entries)
    (habsent : Dictionary.find? entries name = none) :
    ∃ trail', (d.adding (names trail) name text).LeadsInto path trail'
        (entries ++ [(name, .file (some text))]) ∧
      Parallel d (d.adding (names trail) name text) trail trail' := by
  have hat := h.isWay.at?_names
  rw [h.2] at hat
  have hvacant : d.root.Vacant (names trail) name entries := ⟨hat, habsent⟩
  obtain ⟨trail', hsteps, hparallel⟩ := Parallel.foldlM_added hvacant _
    (parallel_nil d (d.adding (names trail) name text)) h.1
  refine ⟨trail', ⟨hsteps, ?_⟩, hparallel⟩
  have hat' := hparallel.way'.at?_names
  rw [hparallel.names_eq] at hat'
  exact Option.some.inj (hat'.symm.trans (hvacant.at?_put_front (.file (some text))))

end Disk

end ElementCatalog
