import ElementCatalog.Proofs.ConfigLookup

/-!
# Disks with one configuration file

A disk on which every path through some names leads to a directory, down to a depth, and only one of
these directories has a configuration file.  Toward: the search finds this file exactly if it looks
in its directory.  The route:

* whatever lies at the end of the names is a directory of the same kind (`at?_canopy`), and only the
  configuration file is anything else (`target_of_at?_canopy`);
* so one directory decides about the search, and no other one (`lookIn?_onlyAt`).
-/

namespace ElementCatalog

open ElementCatalog.Path (takesStep stepPieces)

namespace ConfigFile

/-! ## Canopies -/

/-- The configuration file of a directory if it lies at the given location. -/
def configAt (target l : Location) : List (String × FileTree) :=
  if l = target then [(fileName, .file (some "\x7b\x7d"))] else []

/-- A directory with one of each name, which hold the same again, down to a depth.  The only
    configuration file of all of them lies at one location. -/
def canopy (names : List String) (target : Location) : (depth : Nat) → Location → FileTree
  | 0, l => .directory (configAt target l)
  | depth + 1, l =>
    .directory (configAt target l ++
      names.map fun name => (name, canopy names target depth (name :: l)))

/-- Nothing but the configuration file is in its entries. -/
theorem find?_configAt (target l : Location) (name : String) :
    (Dictionary.find? (configAt target l) name).isSome = true ↔ name = fileName ∧ l = target := by
  rw [configAt]
  split
  · rename_i hl
    rw [Dictionary.find?]
    by_cases hname : fileName = name
    · simp [hname, hl]
    · simp [hname, Dictionary.find?, Ne.symm hname]
  · rename_i hl
    simp [Dictionary.find?, hl]

/-- What is made of names is found under the names. -/
theorem find?_map_self {α : Type} (names : List String) (make : String → α) (name : String) :
    Dictionary.find? (names.map fun n => (n, make n)) name =
      if name ∈ names then some (make name) else none := by
  induction names with
  | nil => rfl
  | cons n rest ih =>
      rw [List.map_cons, Dictionary.find?, ih]
      by_cases hn : n = name
      · rw [if_pos hn, if_pos (hn ▸ List.mem_cons_self), hn]
      · rw [if_neg hn]
        simp [Ne.symm hn]

/-- The disk whose only configuration file lies at a location, in a canopy of names. -/
def onlyAt (names : List String) (target : Location) (depth : Nat) (working : String) : Disk :=
  ⟨canopy names target depth [], working⟩

section Canopy

variable {names : List String} {target : Location}

/-- Every way through the names leads to a directory. -/
theorem at?_canopy (target : Location) (houtside : fileName ∉ names) (path : List String) :
    ∀ (depth : Nat) (l : Location), (∀ n ∈ path, n ∈ names) → path.length ≤ depth →
      (canopy names target depth l).at? path =
        some (canopy names target (depth - path.length) (path.reverse ++ l)) := by
  induction path with
  | nil =>
      intro depth l _ _
      rfl
  | cons name path ih =>
      intro depth l hnames hdepth
      obtain ⟨hname, hrest⟩ := List.forall_mem_cons.mp hnames
      obtain ⟨lower, rfl⟩ : ∃ lower, depth = lower + 1 := by
        refine ⟨depth - 1, ?_⟩
        rw [List.length_cons] at hdepth
        omega
      have hconfig : Dictionary.find? (configAt target l) name = none := by
        rw [← Option.isNone_iff_eq_none, ← Option.not_isSome]
        simp only [Bool.not_eq_true', ← Bool.not_eq_true, find?_configAt]
        rintro ⟨rfl, -⟩
        exact houtside hname
      rw [canopy, FileTree.at?, Dictionary.find?_append, hconfig, Option.none_or, find?_map_self,
        if_pos hname, Option.bind_some, ih _ _ hrest (Nat.le_of_succ_le_succ hdepth), List.length_cons,
        Nat.add_sub_add_right, List.reverse_cons, List.append_assoc]
      rfl

/-- Beside a configuration file, a directory has directories of the names alone. -/
theorem exists_inner (names : List String) (target : Location) (depth : Nat) (l : Location) :
    ∃ inner, canopy names target depth l = .directory (configAt target l ++ inner) ∧
      ∀ name tree, Dictionary.find? inner name = some tree →
        name ∈ names ∧ ∃ lower, tree = canopy names target lower (name :: l) := by
  cases depth with
  | zero =>
      refine ⟨[], by rw [List.append_nil, canopy], ?_⟩
      intro name tree h
      cases h
  | succ depth =>
      refine ⟨_, canopy.eq_2 .., ?_⟩
      intro name tree h
      rw [find?_map_self] at h
      split at h
      · rename_i hname
        exact ⟨hname, depth, (Option.some.inj h).symm⟩
      · cases h

/-- A way that ends in no name ends in the configuration file. -/
theorem target_of_at?_canopy {name : String} (hname : name ∉ names) {path : List String} :
    ∀ {depth : Nat} {l : Location},
      ((canopy names target depth l).at? (path ++ [name])).isSome = true →
        name = fileName ∧ path.reverse ++ l = target := by
  induction path with
  | nil =>
      intro depth l h
      obtain ⟨inner, hcanopy, hinner⟩ := exists_inner names target depth l
      rw [hcanopy, List.nil_append, FileTree.at?, Dictionary.find?_append] at h
      refine (find?_configAt target l name).mp ?_
      -- The entries of the canopy have its names, so the one that is found is not among them.
      cases hfind : Dictionary.find? inner name with
      | some tree => exact absurd (hinner name tree hfind).1 hname
      | none =>
          rw [hfind, Option.or_none] at h
          cases hconfig : Dictionary.find? (configAt target l) name with
          | some tree => rfl
          | none =>
              rw [hconfig] at h
              cases h
  | cons first path ih =>
      intro depth l h
      obtain ⟨inner, hcanopy, hinner⟩ := exists_inner names target depth l
      rw [hcanopy, List.cons_append, FileTree.at?] at h
      obtain ⟨found, hfound⟩ := Option.isSome_iff_exists.mp h
      obtain ⟨tree, htree, hat⟩ := Option.bind_eq_some_iff.mp hfound
      rw [Dictionary.find?_append] at htree
      cases hconfig : Dictionary.find? (configAt target l) first with
      | some file =>
          -- Nothing lies below a configuration file.
          rw [hconfig, Option.some_or, Option.some.injEq] at htree
          have hfile : file = .file (some "\x7b\x7d") := by
            rw [configAt] at hconfig
            split at hconfig
            · rw [Dictionary.find?] at hconfig
              split at hconfig
              · exact (Option.some.inj hconfig).symm
              · cases hconfig
            · cases hconfig
          rw [← htree, hfile] at hat
          cases path <;> cases hat
      | none =>
          rw [hconfig, Option.none_or] at htree
          obtain ⟨-, lower, rfl⟩ := hinner first tree htree
          obtain ⟨hfile, htarget⟩ := ih (Option.isSome_iff_exists.mpr ⟨found, hat⟩)
          refine ⟨hfile, ?_⟩
          rw [← htarget, List.reverse_cons, List.append_assoc]
          rfl

/-- The directory of the configuration file decides, and no other one. -/
theorem lookIn?_onlyAt (houtside : ∀ n ∈ names, n ≠ fileName ∧ n ≠ ".git")
    (htarget : ∀ n ∈ target, n ∈ names) {depth : Nat} (hdepth : target.length ≤ depth)
    (working : String) (l : Location) :
    lookIn? (onlyAt names target depth working) l =
      if l = target then some (some (fileName :: target)) else none := by
  have hfile : fileName ∉ names := fun h => (houtside _ h).1 rfl
  have hgit : ".git" ∉ names := fun h => (houtside _ h).2 rfl
  have hhas : ∀ name, name ∉ names → (onlyAt names target depth working).has l name = true →
      name = fileName ∧ l = target := by
    intro name hname h
    obtain ⟨rfl, hl⟩ := target_of_at?_canopy hname h
    rw [List.reverse_reverse, List.append_nil] at hl
    exact ⟨rfl, hl⟩
  by_cases hl : l = target
  · subst hl
    have hconfig : (onlyAt names l depth working).has l fileName = true := by
      have hat := at?_canopy l hfile l.reverse depth []
        (fun n hn => htarget n (List.mem_reverse.mp hn)) (by rw [List.length_reverse]; exact hdepth)
      rw [List.reverse_reverse, List.append_nil] at hat
      obtain ⟨inner, hcanopy, -⟩ := exists_inner names l (depth - l.reverse.length) l
      rw [Disk.has, onlyAt, FileTree.at?_append, hat, Option.bind_some, hcanopy, FileTree.at?,
        Dictionary.find?_append]
      obtain ⟨file, hfound⟩ :=
        Option.isSome_iff_exists.mp ((find?_configAt l l fileName).mpr ⟨rfl, rfl⟩)
      rw [hfound]
      rfl
    rw [lookIn?, if_pos hconfig, if_pos rfl]
  · rw [lookIn?, if_neg fun h => hl (hhas _ hfile h).2, if_neg fun h => hl (hhas _ hgit h).2,
      if_neg hl]

/-- The configuration file is found exactly if its directory is among those that are looked in. -/
theorem firstFound?_onlyAt (houtside : ∀ n ∈ names, n ≠ fileName ∧ n ≠ ".git")
    (htarget : ∀ n ∈ target, n ∈ names) {depth : Nat} (hdepth : target.length ≤ depth)
    (working : String) (ls : List Location) :
    firstFound? (onlyAt names target depth working) ls =
      if target ∈ ls then some (fileName :: target) else none := by
  induction ls with
  | nil => rfl
  | cons l rest ih =>
      rw [firstFound?, List.findSome?_cons, lookIn?_onlyAt houtside htarget hdepth]
      by_cases hl : l = target
      · rw [if_pos hl, if_pos (hl ▸ List.mem_cons_self)]
        rfl
      · rw [if_neg hl]
        refine ih.trans ?_
        simp [Ne.symm hl]

/-! ## Ways through the names -/

/-- A way through the names ends in a directory of the canopy. -/
theorem here_onlyAt (hfile : fileName ∉ names) {depth : Nat} {working : String}
    {trail : Disk.Trail} (hway : (onlyAt names target depth working).IsWay trail)
    (hnames : ∀ n ∈ trail.map Prod.fst, n ∈ names) (hdepth : trail.length ≤ depth) :
    (onlyAt names target depth working).here trail =
      canopy names target (depth - trail.length) (trail.map Prod.fst) := by
  have hat := at?_canopy target hfile (Disk.names trail) depth []
    (fun n hn => hnames n (List.mem_reverse.mp hn))
    (by rw [Disk.names, List.length_reverse, List.length_map]; exact hdepth)
  rw [← Option.some.injEq, ← hway.at?_names]
  refine hat.trans ?_
  rw [Disk.names, List.length_reverse, List.length_map, List.reverse_reverse, List.append_nil]

/-- Every path through the names is followed to a directory. -/
theorem foldlM_onlyAt (hfile : fileName ∉ names) {depth : Nat} {working : String}
    {pieces : List String} (hpieces : ∀ q ∈ pieces, takesStep q = true ∧ (q ≠ ".." → q ∈ names)) :
    ∀ {trail : Disk.Trail}, (onlyAt names target depth working).IsWay trail →
      (∀ n ∈ trail.map Prod.fst, n ∈ names) → trail.length + pieces.length ≤ depth →
        ∃ after entries, pieces.foldlM (onlyAt names target depth working).step trail = .ok after ∧
          (onlyAt names target depth working).here after = .directory entries := by
  induction pieces with
  | nil =>
      intro trail hway hnames hdepth
      obtain ⟨inner, hcanopy, -⟩ :=
        exists_inner names target (depth - trail.length) (trail.map Prod.fst)
      exact ⟨trail, _, rfl, (here_onlyAt hfile hway hnames hdepth).trans hcanopy⟩
  | cons piece rest ih =>
      obtain ⟨⟨htakes, hname⟩, hrest⟩ := List.forall_mem_cons.mp hpieces
      obtain ⟨hempty, hhere⟩ := Path.takesStep_iff.mp htakes
      intro trail hway hnames hdepth
      rw [List.length_cons] at hdepth
      have hdirectory := here_onlyAt hfile hway hnames (by omega)
      -- One step stays within the names and leads one level down at most.
      obtain ⟨next, hstep, hnext, hlength⟩ : ∃ next,
          (onlyAt names target depth working).step trail piece = .ok next ∧
            (∀ n ∈ next.map Prod.fst, n ∈ names) ∧ next.length ≤ trail.length + 1 := by
        by_cases hup : piece = ".."
        · obtain ⟨inner, hcanopy, -⟩ :=
            exists_inner names target (depth - trail.length) (trail.map Prod.fst)
          refine ⟨trail.tail, ?_, ?_, ?_⟩
          · rw [Disk.step, hdirectory, hcanopy]
            dsimp only
            rw [if_neg (not_or.mpr ⟨hempty, hhere⟩), if_pos hup]
          · intro n hn
            rw [List.map_tail] at hn
            exact hnames n (List.mem_of_mem_tail hn)
          · rw [List.length_tail]
            omega
        · have hat := at?_canopy target hfile (Disk.names trail ++ [piece]) depth []
            (by
              intro n hn
              rcases List.mem_append.mp hn with hn | hn
              · exact hnames n (List.mem_reverse.mp hn)
              · exact List.mem_singleton.mp hn ▸ hname hup)
            (by
              rw [List.length_append, Disk.names, List.length_reverse, List.length_map,
                List.length_singleton]
              omega)
          refine ⟨_, hway.step_of_at? (not_or.mpr ⟨hempty, hhere⟩) hup hat, ?_, Nat.le_refl _⟩
          intro n hn
          rcases List.mem_cons.mp hn with rfl | hn
          · exact hname hup
          · exact hnames n hn
      rw [List.foldlM_cons, hstep]
      exact ih hrest (hway.step hstep) hnext (by omega)

/-- A path through the names leads into a directory. -/
theorem leadsInto_onlyAt (target : Location) (hfile : fileName ∉ names) {depth : Nat}
    {working path : String}
    (hnames : ∀ q ∈ stepPieces working ++ stepPieces path, q ≠ ".." → q ∈ names)
    (hdepth : (stepPieces working ++ stepPieces path).length ≤ depth) :
    ∃ trail entries, (onlyAt names target depth working).LeadsInto path trail entries := by
  have hsteps : (onlyAt names target depth working).steps path <:+
      stepPieces working ++ stepPieces path := by
    rw [Disk.steps_eq]
    split
    · exact List.suffix_append _ _
    · exact List.suffix_rfl
  refine foldlM_onlyAt hfile ?_ (Disk.isWay_nil _) ?_ ?_
  · intro q hq
    exact ⟨(Path.of_mem_stepPieces hq).1, hnames q (hsteps.subset hq)⟩
  · intro n hn
    cases hn
  · rw [List.length_nil, Nat.zero_add]
    exact Nat.le_trans hsteps.length_le hdepth

end Canopy

end ConfigFile

end ElementCatalog
