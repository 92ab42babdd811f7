import ElementCatalog.Proofs.FileSpellings
import Mathlib.Data.List.Perm.Subperm

/-!
# Loading as a closure — the least set of files that imports do not leave

Loading works through a queue: the files that have been asked for and not been read yet, in the
order in which they were asked for.  Toward: what is loaded is the least set that holds the scanned
paths and every file that an import of one of its modules leads to, and the order and the number of
times in which the scanned paths are given do not matter.  The route:

* whatever has been asked for was scanned or is there, so the file that a specifier leads to does
  not depend on what has been asked for so far;
* an invariant, `Progress`, says what has been read, what waits, and that the imports of what has
  been read have all been asked for; reading the next file keeps it;
* files that were not scanned have normal paths, of which there are finitely many, so the queue
  becomes empty in time; then everything that is reached has been read.
-/

namespace ElementCatalog

namespace Program

variable {parse : ModuleParser} {d : Disk} {root : Path}

/-! ## What is reached -/

/-- The file at a path is read and parsed to a module. -/
def ReadsAs (parse : ModuleParser) (d : Disk) (path : Path) (m : Source.Module) : Prop :=
  ∃ text, d.read path.text = .ok text ∧ parse path.text text = some m

/-- The file at a path is a module that imports or exports from a file: the first candidate of a
    relative specifier that was scanned or is there. -/
def Follows (parse : ModuleParser) (d : Disk) (scanned : List Path) (source path : Path) : Prop :=
  ∃ m, ReadsAs parse d source m ∧
    ∃ specifier ∈ specifiers m, target? d scanned source specifier = some path

/-- The least set of paths that holds the scanned ones and is closed under imports. -/
inductive Reached (parse : ModuleParser) (d : Disk) (scanned : List Path) : Path → Prop
  | scanned {path : Path} (h : path ∈ scanned) : Reached parse d scanned path
  | followed {source path : Path} (hsource : Reached parse d scanned source)
      (h : Follows parse d scanned source path) : Reached parse d scanned path

/-- The file that a specifier leads to depends only on which files are asked for or there. -/
theorem target?_congr {seen seen' : List Path}
    (h : ∀ p, p ∈ seen ∨ d.isFile p.text = true ↔ p ∈ seen' ∨ d.isFile p.text = true)
    (source : Path) (specifier : String) :
    target? d seen source specifier = target? d seen' source specifier := by
  have hsame : (fun candidate : Path => seen.contains candidate || d.isFile candidate.text) =
      fun candidate => seen'.contains candidate || d.isFile candidate.text := by
    funext candidate
    refine Bool.eq_iff_iff.mpr ?_
    simpa only [Bool.or_eq_true, List.contains_iff_mem] using h candidate
  rw [target?, target?, hsame]

/-- What is followed depends only on which files were scanned. -/
theorem Follows.congr {first first' : List Path} (h : ∀ p, p ∈ first ↔ p ∈ first')
    {source path : Path} (hfollows : Follows parse d first source path) :
    Follows parse d first' source path := by
  obtain ⟨m, hm, specifier, hspecifier, htarget⟩ := hfollows
  rw [target?_congr fun p => or_congr_left (h p)] at htarget
  exact ⟨m, hm, specifier, hspecifier, htarget⟩

/-- What is reached depends only on which files were scanned. -/
theorem Reached.congr {first first' : List Path} (h : ∀ p, p ∈ first ↔ p ∈ first') {path : Path}
    (hreached : Reached parse d first path) : Reached parse d first' path := by
  induction hreached with
  | scanned hmem => exact .scanned ((h _).mp hmem)
  | followed _ hfollows ih => exact .followed ih (hfollows.congr h)

/-- A module is read in one way. -/
theorem ReadsAs.unique {path : Path} {m m' : Source.Module} (h : ReadsAs parse d path m)
    (h' : ReadsAs parse d path m') : m = m' := by
  obtain ⟨text, hread, hparse⟩ := h
  obtain ⟨text', hread', hparse'⟩ := h'
  rw [hread] at hread'
  cases hread'
  rw [hparse] at hparse'
  exact Option.some.inj hparse'

/-- A pending file is parsed exactly if it can be read as a module. -/
theorem readPending_ok_iff {pending : PendingFile} {file : ParsedFile} :
    readPending parse d root pending = .ok file ↔
      ∃ m, ReadsAs parse d pending.path m ∧ file = ⟨pending.path, m, pending.discoverable⟩ := by
  rw [readPending]
  cases hread : d.read pending.path.text with
  | error fault =>
      refine iff_of_false (fun h => by cases h) ?_
      rintro ⟨m, ⟨text, htext, -⟩, -⟩
      rw [hread] at htext
      cases htext
  | ok text =>
      dsimp only
      cases hparse : parse pending.path.text text with
      | none =>
          refine iff_of_false (fun h => by cases h) ?_
          rintro ⟨m, ⟨text', htext, hm⟩, -⟩
          rw [hread] at htext
          cases htext
          rw [hparse] at hm
          cases hm
      | some m =>
          constructor
          · intro h
            cases h
            exact ⟨m, ⟨text, hread, hparse⟩, rfl⟩
          · rintro ⟨m', hm', rfl⟩
            rw [hm'.unique ⟨text, hread, hparse⟩]

/-- A diagnostic reports that the file at a path cannot be read or parsed. -/
def ReportsUnread (root path : Path) (diagnostic : Diagnostic) : Prop :=
  diagnostic.kind = .parseError ∧ diagnostic.file = some (Path.shownUnder root path.text)

/-- A pending file that is not parsed is reported. -/
theorem reportsUnread_of_readPending {pending : PendingFile} {diagnostic : Diagnostic}
    (h : readPending parse d root pending = .error diagnostic) :
    ReportsUnread root pending.path diagnostic := by
  rw [readPending] at h
  split at h
  · cases h
    exact ⟨rfl, rfl⟩
  · split at h
    · cases h
      exact ⟨rfl, rfl⟩
    · cases h

/-! ## The queue -/

/-- A path that waits to be read. Only scanned files are searched for registrations. -/
def pend (first : List Path) (path : Path) : PendingFile :=
  ⟨path, first.contains path && !path.isGenerated⟩

/-- What the file at a path is parsed to. -/
def parsedAt (parse : ModuleParser) (d : Disk) (root : Path) (first : List Path) (path : Path) :
    Option ParsedFile :=
  (readPending parse d root (pend first path)).toOption

/-- What is reported about the file at a path. -/
def unreadAt (parse : ModuleParser) (d : Disk) (root : Path) (first : List Path) (path : Path) :
    Option Diagnostic :=
  match readPending parse d root (pend first path) with
  | .ok _ => none
  | .error diagnostic => some diagnostic

/-- How far the loading of some scanned files is: the paths that have been read, and those that wait
    in the queue. -/
structure Progress (parse : ModuleParser) (d : Disk) (root : Path) (first : List Path)
    (state : Loading) (done queue : List Path) : Prop where
  seen_eq : state.seen = done ++ queue
  nodup : state.seen.Nodup
  scanned : first ⊆ state.seen
  known : ∀ p ∈ state.seen, p ∈ first ∨ p.IsNormal ∧ d.isFile p.text = true
  reached : ∀ p ∈ state.seen, Reached parse d first p
  closed : ∀ p ∈ done, ∀ q, Follows parse d first p q → q ∈ state.seen
  parsed_eq : state.parsed = done.filterMap (parsedAt parse d root first)
  diagnostics_eq : state.diagnostics = done.filterMap (unreadAt parse d root first)

variable {first : List Path} {state : Loading} {done queue : List Path}

/-- A path is parsed to a file exactly if it can be read as a module. -/
theorem parsedAt_eq_some_iff {path : Path} {file : ParsedFile} :
    parsedAt parse d root first path = some file ↔
      ∃ m, ReadsAs parse d path m ∧ file = ⟨path, m, (pend first path).discoverable⟩ := by
  have hread : parsedAt parse d root first path = some file ↔
      readPending parse d root (pend first path) = .ok file := by
    rw [parsedAt]
    cases readPending parse d root (pend first path) with
    | error diagnostic => exact iff_of_false nofun nofun
    | ok parsed => exact ⟨fun h => congrArg _ (Option.some.inj h), fun h => by cases h; rfl⟩
  exact hread.trans readPending_ok_iff

/-- A path is parsed or reported. -/
theorem parsedAt_or_unreadAt (parse : ModuleParser) (d : Disk) (root : Path) (first : List Path)
    (path : Path) :
    (∃ file, parsedAt parse d root first path = some file ∧
        unreadAt parse d root first path = none) ∨
      ∃ diagnostic, parsedAt parse d root first path = none ∧
        unreadAt parse d root first path = some diagnostic ∧
          ReportsUnread root path diagnostic := by
  rw [parsedAt, unreadAt]
  cases hread : readPending parse d root (pend first path) with
  | ok file => exact Or.inl ⟨file, rfl, rfl⟩
  | error diagnostic =>
      have hreports := reportsUnread_of_readPending hread
      exact Or.inr ⟨diagnostic, rfl, rfl, hreports⟩

/-- Asking for the file that a specifier leads to adds it, if it is new.  Everything asked for was
    scanned or is there, so it does not change where a specifier leads. -/
theorem reach_step (source : Path) (specifier : String) (rest : List String) {seen : List Path}
    (new : List Path) (hfirst : first ⊆ seen)
    (hknown : ∀ p ∈ seen, p ∈ first ∨ d.isFile p.text = true) (hnodup : seen.Nodup) :
    ∃ fresh, reach d source (specifier :: rest) seen new =
        reach d source rest (seen ++ fresh) (new ++ fresh) ∧
      (seen ++ fresh).Nodup ∧
      (∀ p ∈ fresh, d.isFile p.text = true ∧ target? d first source specifier = some p) ∧
      ∀ p, target? d first source specifier = some p → p ∈ seen ++ fresh := by
  have htarget : target? d seen source specifier = target? d first source specifier := by
    refine target?_congr (fun p => ⟨?_, Or.imp_left fun hp => hfirst hp⟩) source specifier
    rintro (hmem | hfile)
    · exact hknown p hmem
    · exact Or.inr hfile
  -- Either the specifier leads to nothing new, or to one new file, which is there.
  by_cases hseen : ∀ p, target? d first source specifier = some p → p ∈ seen
  · refine ⟨[], ?_, by rwa [List.append_nil], fun _ hp => absurd hp List.not_mem_nil, ?_⟩
    · rw [reach, htarget, List.append_nil, List.append_nil]
      cases hfound : target? d first source specifier with
      | none => rfl
      | some p =>
          dsimp only
          rw [if_pos (List.contains_iff_mem.mpr (hseen p hfound))]
    · rwa [List.append_nil]
  · obtain ⟨path, hpath, hnew⟩ : ∃ p, target? d first source specifier = some p ∧ p ∉ seen := by
      simpa using hseen
    have hfile : d.isFile path.text = true := by
      have hfound := List.find?_some (htarget.trans hpath)
      rcases Bool.or_eq_true_iff.mp hfound with hmem | hfile
      · exact absurd (List.contains_iff_mem.mp hmem) hnew
      · exact hfile
    refine ⟨[path], ?_, ?_, fun p hp => ?_, fun p hp => ?_⟩
    · rw [reach, htarget, hpath]
      dsimp only
      rw [if_neg (fun h => hnew (List.contains_iff_mem.mp h))]
    · refine List.nodup_append.mpr ⟨hnodup, List.nodup_singleton path, ?_⟩
      rintro a ha b hb rfl
      rw [List.mem_singleton.mp hb] at ha
      exact hnew ha
    · rw [List.mem_singleton.mp hp]
      exact ⟨hfile, hpath⟩
    · rw [hpath] at hp
      cases hp
      exact List.mem_append_right _ List.mem_cons_self

/-- Asking for the files that specifiers lead to adds those that are new, each once. -/
theorem reach_adds (source : Path) (specifiers : List String) :
    ∀ {seen : List Path} (new : List Path), first ⊆ seen →
      (∀ p ∈ seen, p ∈ first ∨ d.isFile p.text = true) → seen.Nodup →
      ∃ added, reach d source specifiers seen new = (seen ++ added, new ++ added) ∧
        (seen ++ added).Nodup ∧
        (∀ p ∈ added, d.isFile p.text = true ∧
          ∃ s ∈ specifiers, target? d first source s = some p) ∧
        ∀ s ∈ specifiers, ∀ p, target? d first source s = some p → p ∈ seen ++ added := by
  induction specifiers with
  | nil =>
      intro seen new hfirst hknown hnodup
      refine ⟨[], ?_, ?_, fun _ hp => absurd hp List.not_mem_nil,
        fun _ hs => absurd hs List.not_mem_nil⟩
      · rw [reach, List.append_nil, List.append_nil]
      · rwa [List.append_nil]
  | cons specifier rest ih =>
      intro seen new hfirst hknown hnodup
      obtain ⟨fresh, hstep, hnodup', hfresh, hhere⟩ :=
        reach_step source specifier rest new hfirst hknown hnodup
      have hknown' : ∀ p ∈ seen ++ fresh, p ∈ first ∨ d.isFile p.text = true := by
        intro p hp
        rcases List.mem_append.mp hp with hp | hp
        · exact hknown p hp
        · exact Or.inr (hfresh p hp).1
      obtain ⟨added, hreach, hadded, hfrom, hall⟩ :=
        ih (new ++ fresh) (fun p hp => List.mem_append_left _ (hfirst hp)) hknown' hnodup'
      rw [List.append_assoc, List.append_assoc] at hreach
      rw [List.append_assoc] at hadded hall
      refine ⟨fresh ++ added, hstep.trans hreach, hadded, fun p hp => ?_, ?_⟩
      · rcases List.mem_append.mp hp with hp | hp
        · obtain ⟨hfile, hleads⟩ := hfresh p hp
          exact ⟨hfile, specifier, List.mem_cons_self, hleads⟩
        · obtain ⟨hfile, s, hs, hleads⟩ := hfrom p hp
          exact ⟨hfile, s, List.mem_cons_of_mem _ hs, hleads⟩
      · refine List.forall_mem_cons.mpr ⟨fun p hp => ?_, hall⟩
        rw [← List.append_assoc]
        exact List.mem_append_left _ (hhere p hp)

/-- Before anything is read, the scanned paths wait. -/
theorem Progress.start (hnodup : first.Nodup) :
    Progress parse d root first { seen := first } [] first where
  seen_eq := rfl
  nodup := hnodup
  scanned := fun _ hp => hp
  known := fun _ hp => Or.inl hp
  reached := fun _ hp => .scanned hp
  closed := fun _ hp => absurd hp List.not_mem_nil
  parsed_eq := rfl
  diagnostics_eq := rfl

/-- What one more path is mapped to comes last, if it is mapped. -/
theorem filterMap_concat {α β : Type} (f : α → Option β) (l : List α) (a : α) :
    (l ++ [a]).filterMap f = l.filterMap f ++ (f a).toList := by
  rw [List.filterMap_append, List.filterMap_cons]
  cases f a <;> rfl

/-- A file has been read when its imports have been asked for behind everything else. -/
theorem Progress.advance {path : Path} {after : Loading} {added : List Path}
    (h : Progress parse d root first state done (path :: queue))
    (hseen : after.seen = state.seen ++ added) (hnodup : (state.seen ++ added).Nodup)
    (hadded : ∀ p ∈ added, (p.IsNormal ∧ d.isFile p.text = true) ∧ Follows parse d first path p)
    (hall : ∀ q, Follows parse d first path q → q ∈ state.seen ++ added)
    (hparsed : after.parsed = state.parsed ++ (parsedAt parse d root first path).toList)
    (hdiagnostics : after.diagnostics =
      state.diagnostics ++ (unreadAt parse d root first path).toList) :
    Progress parse d root first after (done ++ [path]) (queue ++ added) := by
  have hpath : path ∈ state.seen := by
    rw [h.seen_eq]
    exact List.mem_append_right _ List.mem_cons_self
  have hmem : ∀ p ∈ after.seen, p ∈ state.seen ∨ p ∈ added := by
    intro p hp
    rw [hseen] at hp
    exact List.mem_append.mp hp
  constructor
  case seen_eq => simp [hseen, h.seen_eq]
  case nodup =>
    rw [hseen]
    exact hnodup
  case scanned =>
    rw [hseen]
    exact fun p hp => List.mem_append_left _ (h.scanned hp)
  case known =>
    intro p hp
    rcases hmem p hp with hp | hp
    · exact h.known p hp
    · exact Or.inr (hadded p hp).1
  case reached =>
    intro p hp
    rcases hmem p hp with hp | hp
    · exact h.reached p hp
    · exact .followed (h.reached path hpath) (hadded p hp).2
  case closed =>
    rw [hseen]
    intro p hp q hq
    rcases List.mem_append.mp hp with hp | hp
    · exact List.mem_append_left _ (h.closed p hp q hq)
    · rw [List.mem_singleton.mp hp] at hq
      exact hall q hq
  case parsed_eq => rw [hparsed, h.parsed_eq, filterMap_concat]
  case diagnostics_eq => rw [hdiagnostics, h.diagnostics_eq, filterMap_concat]

/-- **One file**: reading the next file of the queue adds the new files that it leads to at the end
    of the queue. -/
theorem Progress.loadFile {path : Path}
    (h : Progress parse d root first state done (path :: queue)) :
    Progress parse d root first (loadFile parse d root state (pend first path)).1 (done ++ [path])
      (queue ++ (loadFile parse d root state (pend first path)).2) := by
  cases hread : readPending parse d root (pend first path) with
  | error diagnostic =>
      -- What is not parsed imports nothing, so the queue only gets shorter.
      have hnone : ∀ q, ¬ Follows parse d first path q := by
        rintro q ⟨m, hm, -⟩
        have hok : readPending parse d root (pend first path) = .ok _ :=
          readPending_ok_iff.mpr ⟨m, hm, rfl⟩
        rw [hread] at hok
        cases hok
      rw [Program.loadFile, hread]
      refine h.advance (List.append_nil _).symm ?_ (fun _ hp => absurd hp List.not_mem_nil)
        (fun q hq => absurd hq (hnone q)) ?_ ?_
      · rw [List.append_nil]
        exact h.nodup
      · rw [parsedAt, hread]
        exact (List.append_nil _).symm
      · rw [unreadAt, hread]
        rfl
  | ok file =>
      obtain ⟨m, hm, hfile⟩ := readPending_ok_iff.mp hread
      obtain ⟨added, hreach, hnodup, hadded, hall⟩ := reach_adds (d := d) path (specifiers m) []
        h.scanned (fun p hp => (h.known p hp).imp_right (·.2)) h.nodup
      have hmodule : file.module = m := by rw [hfile]
      have hplace : (pend first path).path = path := rfl
      rw [Program.loadFile, hread]
      dsimp only
      rw [hmodule, hplace, hreach]
      refine h.advance rfl hnodup (fun p hp => ?_) ?_ ?_ ?_
      · obtain ⟨hpfile, s, hs, htarget⟩ := hadded p hp
        have hnormal := Path.isNormal_of_mem_fallbackCandidates (List.mem_of_find?_eq_some htarget)
        exact ⟨⟨hnormal, hpfile⟩, m, hm, s, hs, htarget⟩
      · rintro q ⟨m', hm', s, hs, htarget⟩
        rw [hm'.unique hm] at hs
        exact hall s hs q htarget
      · rw [parsedAt, hread]
        rfl
      · rw [unreadAt, hread]
        exact (List.append_nil _).symm

/-- A path that is asked for behind the scanned ones was not scanned. -/
theorem Progress.pend_of_added {after : Loading} {path : Path} {added : List Path}
    (h : Progress parse d root first state done (path :: queue))
    (hafter : Progress parse d root first after (done ++ [path]) (queue ++ added)) :
    added.map (fun p => (⟨p, false⟩ : PendingFile)) = added.map (pend first) := by
  refine List.map_congr_left fun p hp => ?_
  have hnodup := hafter.nodup
  have hseen : after.seen = state.seen ++ added := by
    simp [hafter.seen_eq, h.seen_eq]
  rw [hseen] at hnodup
  have hnot : first.contains p = false := by
    rw [List.contains_eq_mem, decide_eq_false_iff_not]
    intro hfirst
    exact (List.nodup_append.mp hnodup).2.2 p (h.scanned hfirst) p hp rfl
  rw [pend, hnot, Bool.false_and]

/-- Reading the rest of a round, with what waits for the next one. -/
theorem Progress.foldl_loadFile (rest : List Path) : ∀ {state : Loading} {done next : List Path},
    Progress parse d root first state done (rest ++ next) →
      ∃ after next', (rest.map (pend first)).foldl
          (fun (state, next) file =>
            let (state, new) := Program.loadFile parse d root state file
            (state, next ++ new.map fun path => ⟨path, false⟩))
          (state, next.map (pend first)) = (after, next'.map (pend first)) ∧
        Progress parse d root first after (done ++ rest) next' := by
  induction rest with
  | nil =>
      intro state done next h
      refine ⟨state, next, rfl, ?_⟩
      rw [List.append_nil]
      exact h
  | cons path rest ih =>
      intro state done next h
      rw [List.cons_append] at h
      have hnext := h.loadFile
      have hpend := h.pend_of_added hnext
      rw [List.append_assoc] at hnext
      obtain ⟨after, next', hfold, hafter⟩ := ih hnext
      refine ⟨after, next', ?_, ?_⟩
      · rw [← hfold, List.map_cons, List.foldl_cons, List.map_append, ← hpend]
      · rw [List.append_assoc] at hafter
        exact hafter

/-- **One round**: a round reads everything that waits, and what it leads to waits for the next
    one. -/
theorem Progress.loadRound (h : Progress parse d root first state done queue) :
    ∃ after next, loadRound parse d root state (queue.map (pend first)) =
        (after, next.map (pend first)) ∧
      Progress parse d root first after (done ++ queue) next := by
  rw [← List.append_nil queue] at h
  obtain ⟨after, next, hfold, hafter⟩ := h.foldl_loadFile
  exact ⟨after, next, hfold, hafter⟩

/-- No more can be asked for than the scanned paths and the normal paths to files. -/
theorem Progress.length_seen_le (h : Progress parse d root first state done queue) :
    state.seen.length ≤ first.length + 4 * d.root.fileCount := by
  obtain ⟨spellings, hlength, hspellings⟩ := d.exists_spellings
  have hsub : state.seen ⊆ first ++ spellings := by
    intro p hp
    rcases h.known p hp with hfirst | ⟨hnormal, hfile⟩
    · exact List.mem_append_left _ hfirst
    · exact List.mem_append_right _ (hspellings p hnormal hfile)
  calc state.seen.length
      ≤ (first ++ spellings).length := (List.subperm_of_subset h.nodup hsub).length_le
    _ = first.length + 4 * d.root.fileCount := by rw [List.length_append, hlength]

/-- **All rounds**: if enough rounds are left for what can still be asked for, the queue becomes
    empty, and more rounds change nothing. -/
theorem Progress.loadRounds (fuel : Nat) : ∀ {state : Loading} {done queue : List Path},
    Progress parse d root first state done queue →
      (queue ≠ [] → first.length + 4 * d.root.fileCount < state.seen.length + fuel) →
        ∃ final finalDone, Progress parse d root first final finalDone [] ∧
          ∀ more, loadRounds parse d root (fuel + more) state (queue.map (pend first)) = final := by
  induction fuel with
  | zero =>
      intro state done queue h hfuel
      cases queue with
      | nil =>
          refine ⟨state, done, h, fun more => ?_⟩
          cases more <;> rfl
      | cons path rest =>
          -- More would have been asked for than there is.
          exact absurd (hfuel (List.cons_ne_nil path rest)) (Nat.not_lt.mpr h.length_seen_le)
  | succ fuel ih =>
      intro state done queue h hfuel
      cases queue with
      | nil =>
          refine ⟨state, done, h, fun more => ?_⟩
          rw [Nat.succ_add]
          rfl
      | cons path rest =>
          obtain ⟨after, next, hround, hafter⟩ := h.loadRound
          -- A round that leaves something waiting has asked for it, which pays for the round.
          have hroom : next ≠ [] →
              first.length + 4 * d.root.fileCount < after.seen.length + fuel := by
            intro hnext
            have hgrows : after.seen.length = state.seen.length + next.length := by
              rw [hafter.seen_eq, h.seen_eq, List.length_append]
            have hpos := List.length_pos_of_ne_nil hnext
            have hroom := hfuel (List.cons_ne_nil path rest)
            omega
          obtain ⟨final, finalDone, hfinal, hsame⟩ := ih hafter hroom
          refine ⟨final, finalDone, hfinal, fun more => ?_⟩
          rw [Nat.succ_add, ← hsame more, List.map_cons, loadRounds_cons, ← List.map_cons, hround]

/-! ## The loaded program -/

/-- The distinct paths of a list are its members, each once. -/
theorem distinct_nodup_and_mem (paths : List Path) :
    (distinct paths).Nodup ∧ ∀ p, p ∈ distinct paths ↔ p ∈ paths := by
  have hfold : ∀ (paths before : List Path), before.Nodup →
      (paths.foldl Path.addNew before).Nodup ∧
        ∀ p, p ∈ paths.foldl Path.addNew before ↔ p ∈ before ∨ p ∈ paths := by
    intro paths
    induction paths with
    | nil => exact fun before hbefore => ⟨hbefore, fun p => by simp⟩
    | cons path rest ih =>
        intro before hbefore
        rw [List.foldl_cons, Path.addNew]
        by_cases hmem : path ∈ before
        · rw [if_pos (List.contains_iff_mem.mpr hmem)]
          refine (ih before hbefore).imp_right fun hiff p => (hiff p).trans ?_
          rw [List.mem_cons, or_left_comm]
          refine ⟨Or.inr, ?_⟩
          rintro (rfl | h)
          · exact Or.inl hmem
          · exact h
        · rw [if_neg fun h => hmem (List.contains_iff_mem.mp h)]
          have hnodup : (before ++ [path]).Nodup :=
            List.nodup_append.mpr ⟨hbefore, List.nodup_singleton path, by
              rintro a ha b hb rfl
              rw [List.mem_singleton.mp hb] at ha
              exact hmem ha⟩
          refine (ih _ hnodup).imp_right fun hiff p => (hiff p).trans ?_
          rw [List.mem_append, List.mem_singleton, List.mem_cons, or_assoc]
  refine (hfold paths [] List.nodup_nil).imp_right fun hiff p => (hiff p).trans ?_
  exact or_iff_right List.not_mem_nil

/-- The state after at most some rounds of loading. -/
def loadedWithin (parse : ModuleParser) (d : Disk) (root : Path) (scanned : List Path)
    (rounds : Nat) : Loading :=
  let first := distinct (scanned.map Path.normalize)
  loadRounds parse d root rounds { seen := first } (first.map fun p => ⟨p, !p.isGenerated⟩)

/-- Loading ends in time, with everything that is reached. -/
theorem exists_loaded (parse : ModuleParser) (d : Disk) (root : Path) (scanned : List Path) :
    ∃ (final : Loading) (done : List Path), (∀ rounds, roundBound d ≤ rounds →
        loadedWithin parse d root scanned rounds = final) ∧
      done.Nodup ∧ (∀ p, p ∈ done ↔ Reached parse d (scanned.map Path.normalize) p) ∧
      final.parsed =
        done.filterMap (parsedAt parse d root (distinct (scanned.map Path.normalize))) ∧
      final.diagnostics =
        done.filterMap (unreadAt parse d root (distinct (scanned.map Path.normalize))) := by
  obtain ⟨hnodup, hmem⟩ := distinct_nodup_and_mem (scanned.map Path.normalize)
  have hstart : Progress parse d root _ _ [] (distinct (scanned.map Path.normalize)) :=
    .start hnodup
  obtain ⟨final, done, hfinal, hsame⟩ := hstart.loadRounds (roundBound d) fun _ =>
    Nat.add_lt_add_left (Nat.lt_succ_self _) _
  -- What waits at first was scanned, so `pend` marks it as loading does.
  have hround : (distinct (scanned.map Path.normalize)).map
      (fun p => (⟨p, !p.isGenerated⟩ : PendingFile)) =
        (distinct (scanned.map Path.normalize)).map
          (pend (distinct (scanned.map Path.normalize))) := by
    refine List.map_congr_left fun p hp => ?_
    rw [pend, List.contains_iff_mem.mpr hp, Bool.true_and]
  have hseen : final.seen = done := hfinal.seen_eq.trans (List.append_nil done)
  refine ⟨final, done, ?_, hseen ▸ hfinal.nodup, ?_, hfinal.parsed_eq, hfinal.diagnostics_eq⟩
  · intro rounds hrounds
    obtain ⟨more, rfl⟩ := Nat.exists_eq_add_of_le hrounds
    rw [← hsame more, ← hround]
    rfl
  · intro p
    rw [← hseen]
    constructor
    · exact fun hp => (hfinal.reached p hp).congr hmem
    · intro hp
      have hreached := hp.congr fun p => (hmem p).symm
      clear hp
      induction hreached with
      | scanned hfirst => exact hfinal.scanned hfirst
      | followed _ hfollows ih =>
          rw [hseen] at ih
          exact hfinal.closed _ ih _ hfollows

/-- Files at distinct paths are parsed to files with distinct paths. -/
theorem distinctPaths_parsedAt {done : List Path} (h : done.Nodup) :
    DistinctPaths (done.filterMap (parsedAt parse d root first)) := by
  refine List.pairwise_map.mpr (List.pairwise_filterMap.mpr ?_)
  refine h.imp fun {p q} hne file hp file' hq => ?_
  obtain ⟨m, -, rfl⟩ := parsedAt_eq_some_iff.mp hp
  obtain ⟨m', -, rfl⟩ := parsedAt_eq_some_iff.mp hq
  exact hne

/-- A program with its diagnostics holds what is reached from some scanned paths. -/
structure IsClosureOf (parse : ModuleParser) (d : Disk) (root : Path) (scanned : List Path)
    (program : Program) (diagnostics : List Diagnostic) : Prop where
  /-- The files are the modules that are reached. -/
  files : ∀ path m, (∃ file ∈ program.files, file.path = path ∧ file.module = m) ↔
    Reached parse d (scanned.map Path.normalize) path ∧ ReadsAs parse d path m
  increasing : program.files.Pairwise fun a b =>
    Path.before a.path.components b.path.components = true
  placed : ∀ (place : Nat) (file : SourceFile), program.files[place]? = some file →
    file.id = place ∧ program.file? file.path = some file
  discoverable : ∀ file ∈ program.files, file.discoverable = true ↔
    file.path ∈ scanned.map Path.normalize ∧ file.path.isGenerated = false
  /-- Each other path that is reached is reported, once. -/
  reported : ∃ unread : List Path, unread.Nodup ∧
    (∀ path, path ∈ unread ↔ Reached parse d (scanned.map Path.normalize) path ∧
      ¬∃ m, ReadsAs parse d path m) ∧
    List.Forall₂ (ReportsUnread root) unread diagnostics

/-- Some paths, each once, of which those that are not parsed are reported in order. -/
theorem forall₂_unreadAt (done : List Path) :
    List.Forall₂ (ReportsUnread root)
      (done.filter fun p => (parsedAt parse d root first p).isNone)
      (done.filterMap (unreadAt parse d root first)) := by
  induction done with
  | nil => exact .nil
  | cons path rest ih =>
      rcases parsedAt_or_unreadAt parse d root first path with
        ⟨file, hparsed, hunread⟩ | ⟨diagnostic, hparsed, hunread, hreports⟩
      · rw [List.filter_cons_of_neg (by simp [hparsed]), List.filterMap_cons_none hunread]
        exact ih
      · rw [List.filter_cons_of_pos (by simp [hparsed]), List.filterMap_cons_some hunread]
        exact .cons hreports ih

/-- What loading leaves is the closure of the scanned paths. -/
theorem isClosureOf_loaded {scanned done : List Path} (hnodup : done.Nodup)
    (hmem : ∀ p, p ∈ done ↔ Reached parse d (scanned.map Path.normalize) p)
    (hfirst : ∀ p, p ∈ first ↔ p ∈ scanned.map Path.normalize) :
    IsClosureOf parse d root scanned
      (ofParsed root (done.filterMap (parsedAt parse d root first)))
      (done.filterMap (unreadAt parse d root first)) := by
  have hdistinct : DistinctPaths (done.filterMap (parsedAt parse d root first)) :=
    distinctPaths_parsedAt hnodup
  constructor
  case files =>
    intro path m
    constructor
    · rintro ⟨file, hfile, rfl, rfl⟩
      obtain ⟨parsed, hmemParsed, place, rfl⟩ := mem_files_ofParsed hfile
      obtain ⟨p, hp, hpfile⟩ := List.mem_filterMap.mp hmemParsed
      obtain ⟨m, hm, rfl⟩ := parsedAt_eq_some_iff.mp hpfile
      exact ⟨(hmem p).mp hp, hm⟩
    · rintro ⟨hreached, hm⟩
      have hfile : parsedAt parse d root first path = some _ :=
        parsedAt_eq_some_iff.mpr ⟨m, hm, rfl⟩
      have hparsed := List.mem_filterMap.mpr ⟨path, (hmem path).mpr hreached, hfile⟩
      obtain ⟨place, hplace⟩ := exists_placed root hparsed
      exact ⟨_, hplace, rfl, rfl⟩
  case increasing => exact pairwise_before_files root hdistinct
  case placed =>
    intro place file hfile
    refine ⟨(ofParsed root _).id_eq_place place file hfile, ?_⟩
    exact (file?_eq_some_iff (pairwise_before_files root hdistinct)).mpr
      ⟨List.mem_of_getElem? hfile, rfl⟩
  case discoverable =>
    intro file hfile
    obtain ⟨parsed, hmemParsed, place, rfl⟩ := mem_files_ofParsed hfile
    obtain ⟨p, hp, hpfile⟩ := List.mem_filterMap.mp hmemParsed
    obtain ⟨m, hm, rfl⟩ := parsedAt_eq_some_iff.mp hpfile
    change (first.contains p && !p.isGenerated) = true ↔ _ ∧ p.isGenerated = false
    rw [Bool.and_eq_true, List.contains_iff_mem, Bool.not_eq_true']
    exact and_congr_left fun _ => hfirst p
  case reported =>
    refine ⟨_, hnodup.filter _, fun path => ?_, forall₂_unreadAt done⟩
    rw [List.mem_filter, hmem path, Option.isNone_iff_eq_none]
    refine and_congr_right fun _ => ?_
    rw [← not_iff_not, not_not, ← ne_eq, Option.ne_none_iff_exists']
    constructor
    · rintro ⟨file, hfile⟩
      obtain ⟨m, hm, -⟩ := parsedAt_eq_some_iff.mp hfile
      exact ⟨m, hm⟩
    · rintro ⟨m, hm⟩
      exact ⟨_, parsedAt_eq_some_iff.mpr ⟨m, hm, rfl⟩⟩

/-- **Loading is a closure**: with any parser, on any disk and from any scanned paths, loading ends
    within its bound of rounds, the program and the diagnostics are those of the closure of the
    scanned paths under imports, and neither the order of the scanned paths nor repetitions among
    them change the program or the diagnostics, but for the order of the latter. -/
theorem loadWith_closure (parse : ModuleParser) (d : Disk) (root : Path) (scanned : List Path) :
    (∀ rounds, roundBound d ≤ rounds → loadWith parse d root scanned =
        (ofParsed root.normalize (loadedWithin parse d root.normalize scanned rounds).parsed,
          (loadedWithin parse d root.normalize scanned rounds).diagnostics)) ∧
      IsClosureOf parse d root.normalize scanned (loadWith parse d root scanned).1
        (loadWith parse d root scanned).2 ∧
      ∀ scanned' : List Path, (∀ p, p ∈ scanned' ↔ p ∈ scanned) →
        (loadWith parse d root scanned').1 = (loadWith parse d root scanned).1 ∧
        (loadWith parse d root scanned').2.Perm (loadWith parse d root scanned).2 := by
  have hload : ∀ scanned : List Path, loadWith parse d root scanned =
      (ofParsed root.normalize
          (loadedWithin parse d root.normalize scanned (roundBound d)).parsed,
        (loadedWithin parse d root.normalize scanned (roundBound d)).diagnostics) :=
    fun _ => rfl
  obtain ⟨final, done, hend, hnodup, hmem, hparsed, hdiagnostics⟩ :=
    exists_loaded parse d root.normalize scanned
  have hfinal := hend _ (Nat.le_refl _)
  obtain ⟨-, hfirst⟩ := distinct_nodup_and_mem (scanned.map Path.normalize)
  refine ⟨fun rounds hrounds => ?_, ?_, fun scanned' hsame => ?_⟩
  · rw [hload, hfinal, hend rounds hrounds]
  · rw [hload, hfinal, hparsed, hdiagnostics]
    exact isClosureOf_loaded hnodup hmem hfirst
  · obtain ⟨final', done', hend', hnodup', hmem', hparsed', hdiagnostics'⟩ :=
      exists_loaded parse d root.normalize scanned'
    obtain ⟨-, hfirst'⟩ := distinct_nodup_and_mem (scanned'.map Path.normalize)
    have hnormal : ∀ p, p ∈ scanned'.map Path.normalize ↔ p ∈ scanned.map Path.normalize := by
      intro p
      simp only [List.mem_map, hsame]
    have hpend : pend (distinct (scanned'.map Path.normalize)) =
        pend (distinct (scanned.map Path.normalize)) := by
      funext p
      have hcontains : (distinct (scanned'.map Path.normalize)).contains p =
          (distinct (scanned.map Path.normalize)).contains p := by
        refine Bool.eq_iff_iff.mpr ?_
        rw [List.contains_iff_mem, List.contains_iff_mem, hfirst', hfirst, hnormal]
      rw [pend, pend, hcontains]
    -- The same paths are reached, each once, but in another order.
    have hdone : done'.Perm done := by
      refine (List.perm_ext_iff_of_nodup hnodup' hnodup).mpr fun p => ?_
      rw [hmem, hmem']
      exact ⟨fun h => h.congr hnormal, fun h => h.congr fun p => (hnormal p).symm⟩
    have hview : parsedAt parse d root.normalize (distinct (scanned'.map Path.normalize)) =
          parsedAt parse d root.normalize (distinct (scanned.map Path.normalize)) ∧
        unreadAt parse d root.normalize (distinct (scanned'.map Path.normalize)) =
          unreadAt parse d root.normalize (distinct (scanned.map Path.normalize)) := by
      constructor <;> funext p
      · rw [parsedAt, parsedAt, hpend]
      · rw [unreadAt, unreadAt, hpend]
    rw [hload, hload, hfinal, hend' _ (Nat.le_refl _), hparsed, hparsed', hdiagnostics,
      hdiagnostics', hview.1, hview.2]
    exact ⟨ofParsed_eq_of_perm _ (distinctPaths_parsedAt hnodup') (hdone.filterMap _),
      hdone.filterMap _⟩

/-! ## Modules in a ring -/

/-- A disk with two modules that hand on each other's exports. -/
def ringDisk : Disk :=
  { root := .directory
      [ ("a.ts", .file (some "export * from \"./b\";")),
        ("b.ts", .file (some "export * from \"./a\";")) ]
    workingDirectory := "/" }

/-- One module of the ring, under two spellings of its path. -/
def ringScanned : List Path :=
  [⟨[.root, .name "a.ts"]⟩, ⟨[.root, .here, .name "a.ts"]⟩]

/-- From one module of the ring, scanned twice, the other one is loaded, but not searched for
    registrations; more rounds than needed and another order of the spellings make no difference. -/
theorem ring_loaded :
    (∃ file ∈ (load ringDisk ⟨[.root]⟩ ringScanned).1.files,
      file.path = ⟨[.root, .name "b.ts"]⟩ ∧ file.discoverable = false) ∧
    (load ringDisk ⟨[.root]⟩ ringScanned).2 =
      (loadedWithin Source.Module.parse? ringDisk ⟨[.root]⟩ ringScanned 20).diagnostics ∧
    (load ringDisk ⟨[.root]⟩ ringScanned.reverse).1 =
      (load ringDisk ⟨[.root]⟩ ringScanned).1 := by
  obtain ⟨hends, hclosure, horder⟩ :=
    loadWith_closure Source.Module.parse? ringDisk ⟨[.root]⟩ ringScanned
  have hrounds : roundBound ringDisk ≤ 20 := by decide
  refine ⟨?_, congrArg Prod.snd (hends 20 hrounds),
    (horder ringScanned.reverse fun p => List.mem_reverse).1⟩
  have hread : ringDisk.read (Path.text ⟨[.root, .name "a.ts"]⟩) = .ok "export * from \"./b\";" ∧
      ringDisk.read (Path.text ⟨[.root, .name "b.ts"]⟩) = .ok "export * from \"./a\";" := by
    simp only [Disk.read, Disk.follow, Text.splitOn_slash]
    decide +kernel
  have htarget : target? ringDisk (ringScanned.map Path.normalize)
      ⟨[.root, .name "a.ts"]⟩ "./b" = some ⟨[.root, .name "b.ts"]⟩ := by
    simp only [target?, Path.fallbackCandidates, Path.moduleCandidates, Path.specifierBase?,
      Path.resolveFrom, Path.ofText, Path.extension?, Path.withExtension, Path.splitName,
      Disk.isFile, Disk.find?, Disk.follow, Text.splitOn_slash, Text.splitOn_dot]
    decide +kernel
  have hreached : Reached Source.Module.parse? ringDisk (ringScanned.map Path.normalize)
      ⟨[.root, .name "b.ts"]⟩ :=
    .followed (.scanned (by decide)) ⟨_, ⟨_, hread.1, rfl⟩, "./b", by decide +kernel, htarget⟩
  obtain ⟨file, hfile, hpath, -⟩ := (hclosure.files _ _).mpr ⟨hreached, _, hread.2, rfl⟩
  refine ⟨file, hfile, hpath, ?_⟩
  rw [← Bool.not_eq_true, hclosure.discoverable file hfile, hpath]
  decide

end Program

end ElementCatalog
