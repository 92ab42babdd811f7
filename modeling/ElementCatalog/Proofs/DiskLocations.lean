import ElementCatalog.Proofs.DiskWrites
import ElementCatalog.Proofs.JoinedTexts
import Mathlib.Data.List.Induction

/-!
# Locations on a disk — where paths lead if they are followed

Toward: a path that is followed on a disk leads to its location, as seen from the working directory,
and so does the path that is read from its text.  The route:

* a step by a piece is a step of the location (`location_foldlM`), and a piece that takes no step
  only asks for a directory (`foldlM_takesStep_iff`);
* so a path is followed exactly if its steps are taken, and its last piece takes one or a directory
  is reached (`follow_eq_ok_iff`);
* a name behind a path to a directory leads to the entry of this name (`follow_joinText_name`).
-/

namespace ElementCatalog

namespace Disk

open ElementCatalog.Path
  (takesStep component stepPieces headOf heads endsInStep joinText ofText IsName)

variable {d : Disk}

/-! ## Steps -/

/-- The location that the working directory is. -/
def home (d : Disk) : Location :=
  (ofText d.workingDirectory).locationFrom []

/-- The pieces that take a step when a path is followed. -/
def steps (d : Disk) (path : String) : List String :=
  stepPieces (joinText d.workingDirectory path)

/-- The location that a path is followed to. -/
def location? (d : Disk) (path : String) : Option Location :=
  match d.follow path with
  | .ok trail => some (trail.map Prod.fst)
  | .error _ => none

/-- The steps of a path are its own, behind those of the working directory if it is relative. -/
theorem steps_eq (d : Disk) (path : String) :
    d.steps path =
      (if headOf path = [.root] then [] else stepPieces d.workingDirectory) ++ stepPieces path := by
  rw [steps]
  cases h : path.startsWith "/" with
  | true =>
      rw [if_pos (Path.headOf_eq_root_iff.mpr h), joinText, if_pos h]
      rfl
  | false =>
      rw [if_neg fun hroot => Bool.false_ne_true (h.symm.trans (Path.headOf_eq_root_iff.mp hroot)),
        Path.stepPieces_joinText h]

/-- The steps of a path that has been read. -/
theorem steps_text (d : Disk) {head : List PathComponent} (hhead : head ∈ heads)
    {pieces : List String} (hpieces : ∀ q ∈ pieces, takesStep q = true ∧ '/' ∉ q.toList) :
    d.steps (⟨head ++ pieces.map component⟩ : Path).text =
      (if head = [.root] then [] else stepPieces d.workingDirectory) ++ pieces := by
  rw [steps_eq, Path.headOf_text hhead hpieces, Path.stepPieces_text hhead hpieces]

/-- The components of the steps lead to the location of the path. -/
theorem foldl_steps (d : Disk) (path : String) :
    ((d.steps path).map component).foldl Location.step [] = (ofText path).locationFrom d.home := by
  rw [Path.locationFrom_ofText, steps]
  cases h : path.startsWith "/" with
  | true =>
      rw [joinText, if_pos h]
      rfl
  | false =>
      rw [Path.stepPieces_joinText h, List.map_append, List.foldl_append, home,
        Path.locationFrom_ofText]
      cases d.workingDirectory.startsWith "/" <;> rfl

/-- A piece that takes no step stays in a directory. -/
theorem step_of_stays {trail : Trail} {piece : String} (hstay : takesStep piece = false)
    {entries : List (String × FileTree)} (h : d.here trail = .directory entries) :
    d.step trail piece = .ok trail := by
  have hpiece : piece = "" ∨ piece = "." := by
    by_contra hnot
    rw [Path.takesStep_iff.mpr (not_or.mp hnot)] at hstay
    cases hstay
  rw [step, h]
  exact if_pos hpiece

/-- A piece that takes a step takes that of its component. -/
theorem location_step {trail after : Trail} {piece : String} (htakes : takesStep piece = true)
    (h : d.step trail piece = .ok after) :
    after.map Prod.fst = Location.step (trail.map Prod.fst) (component piece) := by
  obtain ⟨entries, hhere⟩ := exists_entries_of_step h
  obtain ⟨hempty, hhere'⟩ := Path.takesStep_iff.mp htakes
  rw [step, hhere] at h
  dsimp only at h
  rw [if_neg (not_or.mpr ⟨hempty, hhere'⟩)] at h
  rw [component]
  split at h
  · rename_i hup
    cases h
    rw [if_pos hup, List.map_tail]
    rfl
  · rename_i hup
    rw [if_neg hup]
    split at h
    · cases h
      rfl
    · cases h

/-- One more piece is followed last. -/
theorem foldlM_concat {pieces : List String} {piece : String} {trail after : Trail} :
    (pieces ++ [piece]).foldlM d.step trail = .ok after ↔
      ∃ middle, pieces.foldlM d.step trail = .ok middle ∧ d.step middle piece = .ok after := by
  rw [List.foldlM_append]
  cases hmiddle : pieces.foldlM d.step trail with
  | error fault =>
      constructor
      · intro h
        cases h
      · rintro ⟨middle, hmiddle', -⟩
        cases hmiddle'
  | ok middle =>
      show (List.foldlM d.step middle [piece] = .ok after ↔ _)
      rw [List.foldlM_cons]
      cases hstep : d.step middle piece with
      | error fault =>
          constructor
          · intro h
            cases h
          · rintro ⟨middle', hmiddle', hlast⟩
            cases hmiddle'
            rw [hstep] at hlast
            cases hlast
      | ok last =>
          constructor
          · intro h
            cases h
            exact ⟨middle, rfl, hstep⟩
          · rintro ⟨middle', hmiddle', hlast⟩
            cases hmiddle'
            rw [hstep] at hlast
            exact hlast

/-- Steps that are taken lead to the location of their components. -/
theorem location_foldlM {pieces : List String} (htakes : ∀ q ∈ pieces, takesStep q = true) :
    ∀ {trail after : Trail}, pieces.foldlM d.step trail = .ok after →
      after.map Prod.fst = (pieces.map component).foldl Location.step (trail.map Prod.fst) := by
  induction pieces with
  | nil =>
      intro trail after h
      cases h
      rfl
  | cons piece rest ih =>
      obtain ⟨hpiece, hrest⟩ := List.forall_mem_cons.mp htakes
      intro trail after h
      rw [List.foldlM_cons] at h
      cases hstep : d.step trail piece with
      | error fault =>
          rw [hstep] at h
          cases h
      | ok next =>
          rw [hstep] at h
          rw [ih hrest h, location_step hpiece hstep]
          rfl

/-- Pieces are followed exactly if their steps are taken, and the last piece takes one or a
    directory is reached. -/
theorem foldlM_takesStep_iff (pieces : List String) : ∀ {after : Trail},
    (pieces.getLast?.any takesStep = true ∨ ∃ entries, d.here after = .directory entries) →
      ((pieces.filter takesStep).foldlM d.step [] = .ok after ↔
        pieces.foldlM d.step [] = .ok after) := by
  -- From the end, because every piece but the last has to lead to a directory.
  induction pieces using List.reverseRecOn with
  | nil => exact fun _ => Iff.rfl
  | append_singleton front last ih =>
      intro after hend
      rw [List.filter_append]
      cases hlast : takesStep last with
      | true =>
          rw [List.filter_cons_of_pos hlast, List.filter_nil, foldlM_concat, foldlM_concat]
          constructor
          · rintro ⟨middle, hfront, hstep⟩
            exact ⟨middle, (ih (Or.inr (exists_entries_of_step hstep))).mp hfront, hstep⟩
          · rintro ⟨middle, hfront, hstep⟩
            exact ⟨middle, (ih (Or.inr (exists_entries_of_step hstep))).mpr hfront, hstep⟩
      | false =>
          rw [List.filter_cons_of_neg (ne_true_of_eq_false hlast), List.filter_nil,
            List.append_nil, foldlM_concat]
          have hdirectory : ∃ entries, d.here after = .directory entries := by
            rcases hend with hany | hdirectory
            · rw [List.getLast?_concat, Option.any_some, hlast] at hany
              cases hany
            · exact hdirectory
          constructor
          · intro hfront
            obtain ⟨entries, hentries⟩ := hdirectory
            exact ⟨after, (ih (Or.inr ⟨entries, hentries⟩)).mp hfront, step_of_stays hlast hentries⟩
          · rintro ⟨middle, hfront, hstep⟩
            obtain ⟨entries, hentries⟩ := exists_entries_of_step hstep
            rw [step_of_stays hlast hentries] at hstep
            cases hstep
            exact (ih (Or.inr hdirectory)).mpr hfront

/-- Pieces that are followed end in a step, or in a directory. -/
theorem endsInStep_or_directory {pieces : List String} {after : Trail} (hne : pieces ≠ [])
    (h : pieces.foldlM d.step [] = .ok after) :
    pieces.getLast?.any takesStep = true ∨ ∃ entries, d.here after = .directory entries := by
  obtain ⟨front, last, rfl⟩ := (List.eq_nil_or_concat' pieces).resolve_left hne
  obtain ⟨middle, -, hstep⟩ := foldlM_concat.mp h
  cases hlast : takesStep last with
  | true =>
      left
      rw [List.getLast?_concat, Option.any_some]
      exact hlast
  | false =>
      obtain ⟨entries, hentries⟩ := exists_entries_of_step hstep
      rw [step_of_stays hlast hentries] at hstep
      cases hstep
      exact Or.inr ⟨entries, hentries⟩

/-! ## Paths that are followed -/

/-- A path is followed exactly if its steps are taken, and its last piece takes one or a directory
    is reached. -/
theorem follow_eq_ok_iff {path : String} {trail : Trail} :
    d.follow path = .ok trail ↔ path ≠ "" ∧ (d.steps path).foldlM d.step [] = .ok trail ∧
      (endsInStep path = true ∨ ∃ entries, d.here trail = .directory entries) := by
  rw [follow]
  by_cases hempty : path = ""
  · rw [if_pos hempty]
    constructor
    · intro h
      cases h
    · rintro ⟨hne, -⟩
      exact absurd hempty hne
  rw [if_neg hempty, ← Path.endsInStep_joinText d.workingDirectory path]
  constructor
  · intro h
    have hend := endsInStep_or_directory (Path.splitOn_slash_ne_nil _) h
    exact ⟨hempty, (foldlM_takesStep_iff _ hend).mpr h, hend⟩
  · rintro ⟨-, hsteps, hend⟩
    exact (foldlM_takesStep_iff _ hend).mp hsteps

/-- There is a file where a path leads to one. -/
theorem isFile_iff {path : String} :
    d.isFile path = true ↔ ∃ trail text, d.follow path = .ok trail ∧ d.here trail = .file text := by
  rw [isFile, find?]
  cases d.follow path with
  | error fault => simp
  | ok trail =>
      dsimp only
      cases hhere : d.here trail with
      | file text => simp [hhere]
      | directory entries => simp [hhere]

/-- The steps of a path lead to its location, seen from the working directory. -/
theorem location_of_steps {path : String} {trail : Trail}
    (h : (d.steps path).foldlM d.step [] = .ok trail) :
    trail.map Prod.fst = (ofText path).locationFrom d.home := by
  rw [← foldl_steps]
  exact location_foldlM (fun q hq => (Path.of_mem_stepPieces hq).1) h

/-- **Locations**: a path that is followed leads to its location, seen from the working directory. -/
theorem location_of_follow {path : String} {trail : Trail} (h : d.follow path = .ok trail) :
    d.location? path = some ((ofText path).locationFrom d.home) := by
  rw [location?, h]
  exact congrArg some (location_of_steps (follow_eq_ok_iff.mp h).2.1)

/-- The steps of a path lead to a directory. -/
def LeadsInto (d : Disk) (path : String) (trail : Trail) (entries : List (String × FileTree)) :
    Prop :=
  (d.steps path).foldlM d.step [] = .ok trail ∧ d.here trail = .directory entries

/-- Steps are taken on a way. -/
theorem LeadsInto.isWay {path : String} {trail : Trail} {entries : List (String × FileTree)}
    (h : d.LeadsInto path trail entries) : d.IsWay trail :=
  (isWay_nil d).foldlM _ h.1

/-- The directory lies at the location of the path. -/
theorem LeadsInto.location_eq {path : String} {trail : Trail} {entries : List (String × FileTree)}
    (h : d.LeadsInto path trail entries) :
    trail.map Prod.fst = (ofText path).locationFrom d.home :=
  location_of_steps h.1

/-- A name behind a path takes one more step. -/
theorem steps_joinText_name (d : Disk) (path : String) {n : String} (hn : IsName n) :
    d.steps (joinText path n) = d.steps path ++ [n] := by
  have hjoined : stepPieces (joinText path n) = stepPieces path ++ [n] := by
    rw [Path.stepPieces_joinText hn.startsWith_eq_false, hn.stepPieces_eq]
  rw [steps, steps]
  have hstarts := hn.startsWith_joinText path
  cases habsolute : path.startsWith "/" with
  | true =>
      rw [joinText, if_pos (hstarts.trans habsolute), hjoined, joinText, if_pos habsolute]
  | false =>
      rw [Path.stepPieces_joinText (hstarts.trans habsolute), Path.stepPieces_joinText habsolute,
        hjoined, List.append_assoc]

/-- A name behind a path to a directory leads to the entry of this name. -/
theorem LeadsInto.follow_joinText_name {path : String} {trail : Trail}
    {entries : List (String × FileTree)} (h : d.LeadsInto path trail entries) {n : String}
    (hn : IsName n) (after : Trail) :
    d.follow (joinText path n) = .ok after ↔
      ∃ tree, Dictionary.find? entries n = some tree ∧ after = (n, tree) :: trail := by
  have hne : joinText path n ≠ "" :=
    Path.ne_empty_of_endsInStep ((Path.endsInStep_joinText path n).trans hn.endsInStep)
  have hstep : d.step trail n = .ok after ↔
      ∃ tree, Dictionary.find? entries n = some tree ∧ after = (n, tree) :: trail := by
    rw [step, h.2]
    dsimp only
    rw [if_neg (not_or.mpr ⟨hn.nonempty, hn.notHere⟩), if_neg hn.notUp]
    cases Dictionary.find? entries n with
    | none =>
        constructor
        · intro heq
          cases heq
        · rintro ⟨tree, htree, -⟩
          cases htree
    | some tree =>
        constructor
        · intro heq
          cases heq
          exact ⟨tree, rfl, rfl⟩
        · rintro ⟨tree', htree, rfl⟩
          cases htree
          rfl
  rw [follow_eq_ok_iff, steps_joinText_name d path hn, foldlM_concat, Path.endsInStep_joinText,
    hn.endsInStep, ← hstep]
  constructor
  · rintro ⟨-, ⟨middle, hmiddle, hlast⟩, -⟩
    rw [h.1] at hmiddle
    cases hmiddle
    exact hlast
  · intro hlast
    exact ⟨hne, ⟨trail, h.1, hlast⟩, Or.inl rfl⟩

/-- Under a name behind a path to a directory is the entry of this name. -/
theorem LeadsInto.find?_joinText_name {path : String} {trail : Trail}
    {entries : List (String × FileTree)} (h : d.LeadsInto path trail entries) {n : String}
    (hn : IsName n) : d.find? (joinText path n) = Dictionary.find? entries n := by
  rw [find?]
  cases hfind : Dictionary.find? entries n with
  | some tree =>
      rw [(h.follow_joinText_name hn _).mpr ⟨tree, hfind, rfl⟩]
      rfl
  | none =>
      cases hfollow : d.follow (joinText path n) with
      | error fault => rfl
      | ok after =>
          obtain ⟨tree, htree, -⟩ := (h.follow_joinText_name hn after).mp hfollow
          rw [hfind] at htree
          cases htree

end Disk

end ElementCatalog
