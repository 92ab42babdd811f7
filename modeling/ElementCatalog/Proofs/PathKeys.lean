import ElementCatalog.Proofs.AbsolutePaths

/-!
# Paths as keys — one normal form for all spellings

Files are stored and looked up under normal paths.  Toward: a normal form is folded and is its own
normal form, what is joined to a directory has the same normal form for every spelling of the
directory, and so the files that a specifier may mean do not depend on how the importing file or the
specifier is spelled.  The route:

* a normal form is a start with names behind it, whatever the path was (`exists_start_normalize`),
  and such a path is left as it is;
* behind a joined text the components of a relative path are collected from the normal form of the
  base (`normalize_joinText`), so nothing else of the base counts (`normalize_joinText_congr`);
* of the relative path only its course counts: the double dots that have no name to take back come
  first, and then the names (`foldl_step_eq_collect`);
* candidates are made of what a specifier is joined to (`specifierBase?_congr`).
-/

namespace ElementCatalog

namespace Path

/-! ## Folded paths -/

/-- There is no single dot, and no double dot behind a name. -/
structure IsFolded (p : Path) : Prop where
  noHere : .here ∉ p.components
  upsFirst : p.components.Pairwise fun before after => (∃ n, before = .name n) → after ≠ .up

/-- What may be collected before the names of a course is a start. -/
theorem mem_starts_of_mem_fronts (c : Course) : ∀ front ∈ c.fronts, front ∈ starts := by
  rw [Course.fronts]
  split
  · decide
  · split
    · decide
    · decide

/-- A normal form is a start with names behind it, whatever the path was. -/
theorem exists_start_normalize (p : Path) :
    ∃ start ∈ starts, ∃ names : List String, p.normalize = ⟨start ++ names.map .name⟩ := by
  obtain ⟨front, hfront, hcollected⟩ := collects_normalize p
  exact ⟨front, mem_starts_of_mem_fronts _ front hfront, _, congrArg Path.mk hcollected⟩

/-- A start with names behind it is folded. -/
theorem isFolded_start_names {start : List PathComponent} (h : start ∈ starts)
    (names : List String) : IsFolded ⟨start ++ names.map .name⟩ := by
  have hstart : .here ∉ start ∧ ∀ c ∈ start, ∀ n, c ≠ .name n := by
    simp only [starts, List.mem_cons, List.not_mem_nil, or_false] at h
    rcases h with rfl | rfl | rfl | rfl <;> simp
  refine ⟨?_, List.pairwise_append.mpr ⟨?_, ?_, ?_⟩⟩
  · simp [hstart.1]
  · refine List.pairwise_of_forall_mem_list fun a ha b _ hname => ?_
    obtain ⟨n, hname⟩ := hname
    exact absurd hname (hstart.2 a ha n)
  · refine List.pairwise_of_forall_mem_list fun a _ b hb _ hup => ?_
    obtain ⟨n, -, rfl⟩ := List.mem_map.mp hb
    cases hup
  · rintro a ha b - ⟨n, hname⟩
    exact absurd hname (hstart.2 a ha n)

/-- A normal form is folded. -/
theorem isFolded_normalize (p : Path) : p.normalize.IsFolded := by
  obtain ⟨start, hstart, names, heq⟩ := exists_start_normalize p
  rw [heq]
  exact isFolded_start_names hstart names

/-- A normal form is its own normal form. -/
theorem normalize_normalize (p : Path) : p.normalize.normalize = p.normalize := by
  obtain ⟨start, hstart, names, heq⟩ := exists_start_normalize p
  rw [heq]
  exact normalize_start_names hstart names

/-- The normal form of what is read from a text is read back from its own text. -/
theorem ofText_text_normalize (text : String) :
    ofText (ofText text).normalize.text = (ofText text).normalize :=
  (normalize_isNormal (namesOnly_ofText text)).ofText_text

/-! ## Joined paths -/

/-- The head of a relative path is a single dot, if there is one. -/
theorem headOf_relative {text : String} (h : text.startsWith "/" = false) :
    headOf text = [] ∨ headOf text = [.here] := by
  rcases eq_of_mem_heads (headOf_mem text) with hhead | hhead | hroot
  · exact Or.inl hhead
  · exact Or.inr hhead
  · rw [headOf_eq_root_iff.mp hroot] at h
    cases h

/-- The head of a relative path takes no step. -/
theorem foldl_step_ofText {text : String} (h : text.startsWith "/" = false)
    (collected : List PathComponent) : (ofText text).components.foldl step collected =
      ((stepPieces text).map component).foldl step collected := by
  rw [ofText_eq, List.foldl_append]
  rcases headOf_relative h with hhead | hhead
  · rw [hhead]
    rfl
  · rw [hhead]
    rfl

/-- The normal form of what is read from a text: its steps, from the root if it is absolute. -/
theorem normalize_ofText (text : String) : (ofText text).normalize =
    ⟨((stepPieces text).map component).foldl step
      (if text.startsWith "/" then [.root] else [])⟩ := by
  cases h : text.startsWith "/" with
  | true =>
      rw [normalize, ofText_eq, headOf_eq_root_iff.mpr h]
      rfl
  | false =>
      rw [normalize, foldl_step_ofText h]
      rfl

/-- **Joined paths**: a relative path goes on from the normal form of what it is joined to. -/
theorem normalize_joinText {path : String} (h : path.startsWith "/" = false) (base : String) :
    (ofText (joinText base path)).normalize =
      ⟨(ofText path).components.foldl step (ofText base).normalize.components⟩ := by
  rw [normalize_ofText, normalize_ofText, startsWith_joinText_relative h, stepPieces_joinText h,
    List.map_append, List.foldl_append, foldl_step_ofText h]

/-- Of what a path is joined to only the normal form counts. -/
theorem normalize_joinText_congr {base base' : String}
    (h : (ofText base).normalize = (ofText base').normalize) (path : String) :
    (ofText (joinText base path)).normalize = (ofText (joinText base' path)).normalize := by
  cases hpath : path.startsWith "/" with
  | true => rw [joinText, joinText, if_pos hpath, if_pos hpath]
  | false => rw [normalize_joinText hpath, normalize_joinText hpath, h]

/-- A path may be joined to the normal form of a directory. -/
theorem normalize_joinText_normalize (base path : String) :
    (ofText (joinText (ofText base).normalize.text path)).normalize =
      (ofText (joinText base path)).normalize :=
  normalize_joinText_congr (by rw [ofText_text_normalize, normalize_normalize]) path

/-- What is read from a directory only depends on the normal form of the directory. -/
theorem resolveFrom_congr {directory directory' : Path} (h : directory.IsSpelled)
    (h' : directory'.IsSpelled) (heq : directory.normalize = directory'.normalize)
    (relative : String) : resolveFrom directory relative = resolveFrom directory' relative :=
  normalize_joinText_congr (by rw [h.ofText_text, h'.ofText_text, heq]) relative

/-- What is read from the directory of a text is joined to the text. -/
theorem resolveFrom_ofText (base relative : String) :
    resolveFrom (ofText base) relative = (ofText (joinText base relative)).normalize :=
  normalize_joinText_congr (by rw [(isSpelled_ofText base).ofText_text]) relative

/-! ## Courses of relative paths -/

/-- What is collected on a course: its double dots are stepped through first, and then its names are
    added. -/
def Course.collect (c : Course) (collected : List PathComponent) : List PathComponent :=
  (List.replicate c.up PathComponent.up).foldl Path.step collected ++ c.down.reverse.map .name

/-- A step of a relative course is a step from what has been collected on it. -/
theorem Course.collect_step {c : Course} (h : c.absolute = false) {component : PathComponent}
    (hroot : component ≠ .root) (collected : List PathComponent) :
    (c.step component).absolute = false ∧
      (c.step component).collect collected = Path.step (c.collect collected) component := by
  cases component with
  | root => exact absurd rfl hroot
  | here => exact ⟨h, rfl⟩
  | name text =>
      refine ⟨h, ?_⟩
      show _ ++ (text :: c.down).reverse.map PathComponent.name = _
      rw [map_name_reverse_cons, ← List.append_assoc]
      rfl
  | up =>
      obtain ⟨absolute, up, down⟩ := c
      subst h
      cases down with
      | nil =>
          -- There is no name to take back, so the double dot comes behind the others.
          refine ⟨rfl, ?_⟩
          show (List.replicate (up + 1) PathComponent.up).foldl Path.step collected ++ [] =
            Path.step ((List.replicate up PathComponent.up).foldl Path.step collected ++ []) .up
          rw [List.append_nil, List.append_nil, List.replicate_succ', List.foldl_append]
          rfl
      | cons name names =>
          refine ⟨rfl, ?_⟩
          show (List.replicate up PathComponent.up).foldl Path.step collected ++
              names.reverse.map PathComponent.name =
            Path.step ((List.replicate up PathComponent.up).foldl Path.step collected ++
              (name :: names).reverse.map PathComponent.name) .up
          rw [map_name_reverse_cons, ← List.append_assoc, step_up_concat]

/-- Of relative components only the course counts. -/
theorem foldl_step_eq_collect {components : List PathComponent} (h : .root ∉ components)
    (collected : List PathComponent) :
    components.foldl step collected = (course ⟨components⟩).collect collected := by
  -- What has been stepped through so far is what is collected on its course.
  have hfold : ∀ (rest : List PathComponent) (c : Course), .root ∉ rest → c.absolute = false →
      rest.foldl step (c.collect collected) = (rest.foldl Course.step c).collect collected := by
    intro rest
    induction rest with
    | nil => exact fun _ _ _ => rfl
    | cons component rest ih =>
        intro c hroot habsolute
        obtain ⟨hcomponent, hrest⟩ := not_or.mp (mt List.mem_cons.mpr hroot)
        obtain ⟨hstep, hcollect⟩ :=
          Course.collect_step habsolute (Ne.symm hcomponent) collected
        rw [List.foldl_cons, List.foldl_cons, ← hcollect]
        exact ih _ hrest hstep
  have hstart : Course.collect {} collected = collected := List.append_nil _
  rw [course, ← hfold components {} h rfl, hstart]

/-- The root is no component of a relative path. -/
theorem root_notMem_ofText {text : String} (h : text.startsWith "/" = false) :
    .root ∉ (ofText text).components := by
  rw [ofText_eq]
  intro hmem
  rcases List.mem_append.mp hmem with hhead | hstep
  · rcases headOf_relative h with hnone | hhere
    · simp [hnone] at hhead
    · simp [hhere] at hhead
  · obtain ⟨piece, -, hpiece⟩ := List.mem_map.mp hstep
    exact component_ne_root piece hpiece

/-- Relative paths with one course are joined to the same. -/
theorem normalize_joinText_eq_of_course {path path' : String} (h : path.startsWith "/" = false)
    (h' : path'.startsWith "/" = false) (hcourse : (ofText path).course = (ofText path').course)
    (base : String) :
    (ofText (joinText base path)).normalize = (ofText (joinText base path')).normalize := by
  rw [normalize_joinText h, normalize_joinText h', foldl_step_eq_collect (root_notMem_ofText h),
    foldl_step_eq_collect (root_notMem_ofText h'), hcourse]

/-! ## Candidates -/

/-- A relative specifier is a relative path. -/
theorem startsWith_of_isRelativeSpecifier {specifier : String}
    (h : isRelativeSpecifier specifier = true) : specifier.startsWith "/" = false := by
  have hdot : ∃ rest, specifier.toList = '.' :: rest := by
    simp only [isRelativeSpecifier, Bool.or_eq_true, beq_iff_eq, String.startsWith_string_iff] at h
    rcases h with ((rfl | rfl) | ⟨rest, hrest⟩) | ⟨rest, hrest⟩
    · exact ⟨[], rfl⟩
    · exact ⟨['.'], rfl⟩
    · exact ⟨_, hrest.symm⟩
    · exact ⟨_, hrest.symm⟩
  obtain ⟨rest, hrest⟩ := hdot
  rw [String.startsWith_string_eq_false_iff, hrest]
  rintro ⟨tail, htail⟩
  cases htail

/-- The directory of a file, and where its normal form lies. -/
theorem exists_directory_of_fileName? {p : Path} {n : String} (h : p.fileName? = some n) :
    ∃ directory, p.parent? = some directory ∧
      p.normalize = ⟨directory.normalize.components ++ [.name n]⟩ := by
  obtain ⟨components⟩ := p
  rcases List.eq_nil_or_concat' components with rfl | ⟨front, last, rfl⟩
  · cases h
  · rw [fileName?, List.getLast?_concat] at h
    cases last with
    | name text =>
        cases h
        refine ⟨⟨front⟩, parent?_concat front (by simp), ?_⟩
        rw [normalize, List.foldl_append]
        rfl
    | root | here | up => cases h

/-- Spellings of one file with spellings of one specifier name the same. -/
theorem specifierBase?_congr {file file' n specifier specifier' : String}
    (hname : (ofText file).fileName? = some n) (hname' : (ofText file').fileName? = some n)
    (hfile : (ofText file).normalize = (ofText file').normalize)
    (hrelative : isRelativeSpecifier specifier = true)
    (hrelative' : isRelativeSpecifier specifier' = true)
    (hcourse : (ofText specifier).course = (ofText specifier').course) :
    specifierBase? (ofText file) specifier = specifierBase? (ofText file') specifier' := by
  obtain ⟨directory, hparent, hnormal⟩ := exists_directory_of_fileName? hname
  obtain ⟨directory', hparent', hnormal'⟩ := exists_directory_of_fileName? hname'
  have hdirectory : directory.normalize = directory'.normalize := by
    rw [hnormal, hnormal', Path.mk.injEq] at hfile
    exact congrArg Path.mk (List.append_cancel_right hfile)
  have hspelled := (isSpelled_ofText file).parent hparent
  have hspelled' := (isSpelled_ofText file').parent hparent'
  rw [specifierBase?, specifierBase?, if_pos hrelative, if_pos hrelative', hparent, hparent',
    Option.map_some, Option.map_some, resolveFrom_congr hspelled hspelled' hdirectory]
  exact congrArg some (normalize_joinText_eq_of_course (startsWith_of_isRelativeSpecifier hrelative)
    (startsWith_of_isRelativeSpecifier hrelative') hcourse directory'.text)

/-- The files that a specifier may mean are made of what it names. -/
theorem candidates_congr {fromFile fromFile' : Path} {specifier specifier' : String}
    (h : specifierBase? fromFile specifier = specifierBase? fromFile' specifier') :
    moduleCandidates fromFile specifier = moduleCandidates fromFile' specifier' ∧
      fallbackCandidates fromFile specifier = fallbackCandidates fromFile' specifier' := by
  have hmodule : moduleCandidates fromFile specifier = moduleCandidates fromFile' specifier' := by
    rw [moduleCandidates, moduleCandidates, h]
  refine ⟨hmodule, ?_⟩
  rw [fallbackCandidates, fallbackCandidates, hmodule, h]

end Path

/-- Under a root that is spelled in any way a file is looked up under what its path is joined to. -/
theorem Program.fileAt?_ofText (root relative : String) (parsed : List ParsedFile) :
    (Program.ofParsed (Path.ofText root).normalize parsed).fileAt? relative =
      (Program.ofParsed (Path.ofText root).normalize parsed).file?
        (Path.ofText (Path.joinText root relative)).normalize := by
  have hroot : (Path.ofText root).normalize.IsSpelled :=
    (Path.normalize_isNormal (Path.namesOnly_ofText root)).isSpelled
  show Program.file? _ (Path.resolveFrom (Path.ofText root).normalize relative) = _
  rw [Path.resolveFrom_congr hroot (Path.isSpelled_ofText root) (Path.normalize_normalize _),
    Path.resolveFrom_ofText]

namespace Path

open Text (splitOn_slash splitOn_dot)

/-- **Normal paths are keys.**  The normal form of every path is folded and is its own normal form,
    and is read back from its text.  A path, relative or absolute, that is joined to a directory has
    the normal form that it has when it is joined to the normal form of the directory.  So all that
    a specifier may mean is normal, and the same for all spellings of the importing file and all
    relative specifiers with one course; and a program finds a file under its path from the root,
    however the root is spelled. -/
theorem normal_paths_are_keys :
    (∀ p : Path, p.normalize.IsFolded ∧ p.normalize.normalize = p.normalize) ∧
    (∀ text : String, ofText (ofText text).normalize.text = (ofText text).normalize) ∧
    (∀ base path : String, (ofText (joinText (ofText base).normalize.text path)).normalize =
      (ofText (joinText base path)).normalize) ∧
    (∀ file file' n specifier specifier' : String,
      (ofText file).fileName? = some n → (ofText file').fileName? = some n →
      (ofText file).normalize = (ofText file').normalize →
      isRelativeSpecifier specifier = true → isRelativeSpecifier specifier' = true →
      (ofText specifier).course = (ofText specifier').course →
      moduleCandidates (ofText file) specifier = moduleCandidates (ofText file') specifier' ∧
        fallbackCandidates (ofText file) specifier = fallbackCandidates (ofText file') specifier') ∧
    (∀ (fromFile : Path) (specifier : String), ∀ p ∈ fallbackCandidates fromFile specifier,
      p.normalize = p ∧ ofText p.text = p) ∧
    ∀ (root relative : String) (parsed : List ParsedFile),
      (Program.ofParsed (ofText root).normalize parsed).fileAt? relative =
        (Program.ofParsed (ofText root).normalize parsed).file?
          (ofText (joinText root relative)).normalize := by
  refine ⟨fun p => ⟨isFolded_normalize p, normalize_normalize p⟩, ofText_text_normalize,
    normalize_joinText_normalize, ?_, fun fromFile specifier p hp => ?_, Program.fileAt?_ofText⟩
  · intro file file' n specifier specifier' hname hname' hfile hrelative hrelative' hcourse
    exact candidates_congr
      (specifierBase?_congr hname hname' hfile hrelative hrelative' hcourse)
  · have hnormal := isNormal_of_mem_fallbackCandidates hp
    exact ⟨hnormal.normalize_eq, hnormal.ofText_text⟩

/-- Two spellings of a file, and two of what it asks for: the same files may be meant, one of them
    with an extension. -/
theorem button_candidates :
    (ofText "/project/lib/../src//app.ts").fileName? = some "app.ts" ∧
      (ofText "/project/src/app.ts").fileName? = some "app.ts" ∧
      (ofText "/project/lib/../src//app.ts").normalize = (ofText "/project/src/app.ts").normalize ∧
      isRelativeSpecifier "./ui/../button" = true ∧ isRelativeSpecifier "./button" = true ∧
      (ofText "./ui/../button").course = (ofText "./button").course ∧
      moduleCandidates (ofText "/project/lib/../src//app.ts") "./ui/../button" =
        moduleCandidates (ofText "/project/src/app.ts") "./button" ∧
      fallbackCandidates (ofText "/project/lib/../src//app.ts") "./ui/../button" =
        fallbackCandidates (ofText "/project/src/app.ts") "./button" ∧
      ofText "/project/src/button.ts" ∈
        fallbackCandidates (ofText "/project/src/app.ts") "./button" ∧
      (ofText "/project/src/button.ts").normalize = ofText "/project/src/button.ts" := by
  have hname : (ofText "/project/lib/../src//app.ts").fileName? = some "app.ts" := by
    simp only [ofText, splitOn_slash]
    decide +kernel
  have hname' : (ofText "/project/src/app.ts").fileName? = some "app.ts" := by
    simp only [ofText, splitOn_slash]
    decide +kernel
  have hfile : (ofText "/project/lib/../src//app.ts").normalize =
      (ofText "/project/src/app.ts").normalize := by
    simp only [ofText, splitOn_slash]
    decide +kernel
  have hrelative : isRelativeSpecifier "./ui/../button" = true := by decide +kernel
  have hrelative' : isRelativeSpecifier "./button" = true := by decide +kernel
  have hcourse : (ofText "./ui/../button").course = (ofText "./button").course := by
    simp only [ofText, splitOn_slash]
    decide +kernel
  have hmem : ofText "/project/src/button.ts" ∈
      fallbackCandidates (ofText "/project/src/app.ts") "./button" := by
    simp only [fallbackCandidates, moduleCandidates, specifierBase?, resolveFrom, extension?,
      withExtension, splitName, ofText, splitOn_slash, splitOn_dot]
    decide +kernel
  have h := normal_paths_are_keys
  obtain ⟨hmodule, hfallback⟩ :=
    h.2.2.2.1 _ _ _ _ _ hname hname' hfile hrelative hrelative' hcourse
  exact ⟨hname, hname', hfile, hrelative, hrelative', hcourse, hmodule, hfallback, hmem,
    (h.2.2.2.2.1 _ _ _ hmem).1⟩

end Path

end ElementCatalog
