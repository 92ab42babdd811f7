import ElementCatalog.Proofs.FoundFiles
import ElementCatalog.Proofs.PathSets

/-!
# Scanned files — a filter over a union

The files of a project are found at the included places, and those that a pattern ignores are left
out.  Toward: more includes add their files, more patterns take away files, and neither their order
nor their repetition matters, whatever wildcards mean.  The route:

* wildcards are parameters of the scan (`Globs`), and the scan of a disk is that with its own
  (`files_eq_filesWith`);
* a path is listed exactly if it is read from a text under which a file was found and which no
  pattern ignores (`mem_filesWith`), so lists are compared by their members;
* a pattern without wildcards ignores a file under all its texts or under none.  One with wildcards
  may ignore it under some of them alone, and then the file stays, also if it was listed under one of
  these (`filesWith_cons`).
-/

namespace ElementCatalog.Scan

open ElementCatalog.Path (joinText ofText)

/-! ## Wildcards -/

/-- What wildcards mean: the texts that an ignore pattern covers, if it can be read, and the paths
    that an include is expanded to. -/
structure Globs where
  read? : String → Option (String → Bool)
  expand : String → List String

/-- What wildcards mean on a disk. -/
def Globs.onDisk (d : Disk) : Globs where
  read? text := (Glob.Pattern.ofText? text).map Glob.Pattern.covers
  expand := Glob.directories d

/-- The places that an include names. -/
def includedWith (g : Globs) (d : Disk) (root text : String) : List String :=
  if Glob.hasWildcard text then (g.expand (joinText root text)).filter d.isDirectory
  else if d.exists (joinText root text) then [joinText root text]
  else []

/-- The places that are scanned. -/
def placesWith (g : Globs) (d : Disk) (root : String) (includes : List String) : List String :=
  if includes.isEmpty then [root] else includes.flatMap (includedWith g d root)

/-- The texts under which files are found. -/
def foundWith (g : Globs) (d : Disk) (root : String) (includes : List String) : List String :=
  (placesWith g d root includes).flatMap (filesAt d)

/-- A pattern ignores a text. -/
def ignoredBy (g : Globs) (root pattern text : String) : Bool :=
  if Glob.hasWildcard pattern then (g.read? pattern).any (· text)
  else Path.isUnder (ofText (joinText root pattern)) (ofText text)

/-- Some pattern ignores a text. -/
def refused (g : Globs) (root : String) (ignores : List String) (tests : Bool) (text : String) :
    Bool :=
  (ignores ++ if tests then testFilePatterns else []).any (ignoredBy g root · text)

/-- The source files of a project, for any meaning of wildcards. -/
def filesWith (g : Globs) (d : Disk) (root : String) (includes ignores : List String)
    (tests : Bool) : List Path :=
  collect <| (((foundWith g d root includes).filter fun text => !refused g root ignores tests text).map
    ofText).filter Path.isSource

/-- The text that a path is listed under: the first one under which the file was found. -/
def listedAs? (g : Globs) (d : Disk) (root : String) (includes ignores : List String)
    (tests : Bool) (p : Path) : Option String :=
  (foundWith g d root includes).find? fun text =>
    !refused g root ignores tests text && ofText text == p

/-! ## The wildcards of a disk -/

/-- The patterns that cover tests have wildcards. -/
theorem hasWildcard_of_test {pattern : String} (h : pattern ∈ testFilePatterns) :
    Glob.hasWildcard pattern = true := by
  have hall : ∀ p ∈ testFilePatterns, Glob.hasWildcard p = true := by decide +kernel
  exact hall pattern h

/-- A pattern with wildcards ignores the texts that it covers, if it can be read. -/
theorem ignoredBy_onDisk {d : Disk} {root pattern text : String}
    (h : Glob.hasWildcard pattern = true) : ignoredBy (.onDisk d) root pattern text = true ↔
      ∃ read, Glob.Pattern.ofText? pattern = some read ∧ read.covers text = true := by
  rw [ignoredBy, if_pos h, Option.any_eq_true]
  simp [Globs.onDisk]

/-- What is ignored on a disk is what one of the patterns ignores. -/
theorem cover_eq_refused (d : Disk) (root : String) (ignores : List String) (tests : Bool)
    (text : String) : (Ignores.ofTexts root ignores tests).cover text =
      refused (.onDisk d) root ignores tests text := by
  rw [Bool.eq_iff_iff, Ignores.cover, Ignores.ofTexts, List.partition_eq_filter_filter, refused]
  simp only [Bool.or_eq_true, List.any_eq_true, List.mem_map, List.mem_filter, List.mem_filterMap,
    List.mem_append]
  constructor
  · rintro (⟨place, ⟨pattern, ⟨hmem, hplain⟩, rfl⟩, hunder⟩ | ⟨read, ⟨pattern, hmem, hread⟩, hcovers⟩)
    · refine ⟨pattern, Or.inl hmem, ?_⟩
      rw [ignoredBy, if_neg (by simpa using hplain)]
      exact hunder
    · have hwild : Glob.hasWildcard pattern = true := by
        rcases hmem with ⟨-, hwild⟩ | htest
        · exact hwild
        · split at htest
          · exact hasWildcard_of_test htest
          · cases htest
      exact ⟨pattern, hmem.imp_left And.left, (ignoredBy_onDisk hwild).mpr ⟨read, hread, hcovers⟩⟩
  · rintro ⟨pattern, hmem, hignored⟩
    cases hwild : Glob.hasWildcard pattern with
    | true =>
        obtain ⟨read, hread, hcovers⟩ := (ignoredBy_onDisk hwild).mp hignored
        exact Or.inr ⟨read, ⟨pattern, hmem.imp_left fun h => ⟨h, hwild⟩, hread⟩, hcovers⟩
    | false =>
        -- A pattern without wildcards is none of those that cover tests.
        have hown : pattern ∈ ignores := by
          refine hmem.resolve_right fun htest => ?_
          split at htest
          · rw [hasWildcard_of_test htest] at hwild
            cases hwild
          · cases htest
        rw [ignoredBy, hwild, if_neg Bool.false_ne_true] at hignored
        exact Or.inl ⟨_, ⟨pattern, ⟨hown, by simpa using hwild⟩, rfl⟩, hignored⟩

/-- The places of a disk are those with its own wildcards. -/
theorem included_eq_includedWith (d : Disk) (root text : String) :
    included d root text = includedWith (.onDisk d) d root text := by
  -- What a pattern is expanded to on a disk are directories already.
  have hdirectories : (Glob.directories d (joinText root text)).filter d.isDirectory =
      Glob.directories d (joinText root text) := by
    rw [Glob.directories]
    split
    · rw [List.filter_filter]
      simp only [Bool.and_self]
    · rfl
  rw [included, includedWith]
  dsimp only [Globs.onDisk]
  rw [hdirectories]

/-- The files of a project are those with the wildcards of its disk. -/
theorem files_eq_filesWith (d : Disk) (root : String) (includes ignores : List String)
    (tests : Bool) :
    files d root includes ignores tests = filesWith (.onDisk d) d root includes ignores tests := by
  have hplaces : (if includes.isEmpty then [root] else includes.flatMap (included d root)) =
      placesWith (.onDisk d) d root includes := by
    rw [placesWith]
    congr 2
    exact funext fun text => included_eq_includedWith d root text
  rw [files, filesWith, foundWith, collect, List.foldl_filter, ← hplaces]
  simp only [cover_eq_refused d]

/-! ## Members -/

variable {g : Globs} {d : Disk} {root : String} {includes ignores : List String} {tests : Bool}

/-- A path is listed exactly if it is read from a text under which a file is found and which no
    pattern ignores. -/
theorem mem_filesWith {p : Path} : p ∈ filesWith g d root includes ignores tests ↔
    p.isSource = true ∧ ∃ text ∈ foundWith g d root includes,
      refused g root ignores tests text = false ∧ ofText text = p := by
  rw [filesWith, mem_collect, List.mem_filter, List.mem_map]
  constructor
  · rintro ⟨⟨text, htext, rfl⟩, hsource⟩
    obtain ⟨hfound, hrefused⟩ := List.mem_filter.mp htext
    exact ⟨hsource, text, hfound, by simpa using hrefused, rfl⟩
  · rintro ⟨hsource, text, hfound, hrefused, rfl⟩
    exact ⟨⟨text, List.mem_filter.mpr ⟨hfound, by simpa using hrefused⟩, rfl⟩, hsource⟩

/-- The files are listed in strict order. -/
theorem inOrder_filesWith (g : Globs) (d : Disk) (root : String) (includes ignores : List String)
    (tests : Bool) : InOrder (filesWith g d root includes ignores tests) :=
  inOrder_collect _

/-! ## Includes -/

/-- With includes, files are found at the places that one of them names. -/
theorem mem_foundWith (h : includes ≠ []) {text : String} : text ∈ foundWith g d root includes ↔
    ∃ i ∈ includes, ∃ place ∈ includedWith g d root i, text ∈ filesAt d place := by
  rw [foundWith, placesWith, if_neg (by simpa using h), List.mem_flatMap]
  constructor
  · rintro ⟨place, hplace, htext⟩
    obtain ⟨i, hi, hplace⟩ := List.mem_flatMap.mp hplace
    exact ⟨i, hi, place, hplace, htext⟩
  · rintro ⟨i, hi, place, hplace, htext⟩
    exact ⟨place, List.mem_flatMap.mpr ⟨i, hi, hplace⟩, htext⟩

/-- The files are told by the texts under which they are found. -/
theorem filesWith_congr {A B : List String}
    (h : ∀ text, text ∈ foundWith g d root A ↔ text ∈ foundWith g d root B) :
    filesWith g d root A ignores tests = filesWith g d root B ignores tests := by
  refine (inOrder_filesWith g d root A ignores tests).eq_of_mem_iff
    (inOrder_filesWith g d root B ignores tests) ?_
  intro p
  rw [mem_filesWith, mem_filesWith]
  simp only [h]

/-- Neither the order of includes nor their repetition matters. -/
theorem filesWith_same_includes {A B : List String} (hA : A ≠ []) (h : ∀ i, i ∈ A ↔ i ∈ B) :
    filesWith g d root A ignores tests = filesWith g d root B ignores tests := by
  have hB : B ≠ [] := by
    obtain ⟨i, hi⟩ := List.exists_mem_of_ne_nil A hA
    exact List.ne_nil_of_mem ((h i).mp hi)
  refine filesWith_congr fun text => ?_
  rw [mem_foundWith hA, mem_foundWith hB]
  simp only [h]

/-- The files of two include lists together are those of the one and of the other. -/
theorem filesWith_append {A B : List String} (hA : A ≠ []) (hB : B ≠ []) :
    filesWith g d root (A ++ B) ignores tests =
      collect (filesWith g d root A ignores tests ++ filesWith g d root B ignores tests) := by
  refine (inOrder_filesWith g d root (A ++ B) ignores tests).eq_of_mem_iff (inOrder_collect _) ?_
  intro p
  have hfound : ∀ text, text ∈ foundWith g d root (A ++ B) ↔
      text ∈ foundWith g d root A ∨ text ∈ foundWith g d root B := by
    intro text
    rw [mem_foundWith hA, mem_foundWith hB, mem_foundWith (List.append_ne_nil_of_left_ne_nil hA B)]
    simp only [List.mem_append, or_and_right, exists_or]
  rw [mem_collect, List.mem_append, mem_filesWith, mem_filesWith, mem_filesWith]
  simp only [hfound, or_and_right, exists_or, and_or_left]

/-! ## Ignores -/

/-- One more pattern refuses what it ignores. -/
theorem refused_cons (pattern text : String) :
    refused g root (pattern :: ignores) tests text =
      (ignoredBy g root pattern text || refused g root ignores tests text) := by
  rw [refused, List.cons_append, List.any_cons, refused]

/-- More patterns refuse more. -/
theorem refused_mono {more : List String} (h : ignores ⊆ more) {text : String}
    (hrefused : refused g root ignores tests text = true) :
    refused g root more tests text = true := by
  rw [refused, List.any_eq_true] at hrefused ⊢
  obtain ⟨pattern, hmem, hignored⟩ := hrefused
  refine ⟨pattern, ?_, hignored⟩
  rw [List.mem_append] at hmem ⊢
  exact hmem.imp_left fun hown => h hown

/-- The text that a path is listed under is one under which the file was found. -/
theorem of_listedAs? {p : Path} {text : String}
    (h : listedAs? g d root includes ignores tests p = some text) :
    text ∈ foundWith g d root includes ∧ refused g root ignores tests text = false ∧
      ofText text = p := by
  have hsome := List.find?_some h
  rw [Bool.and_eq_true, Bool.not_eq_true', beq_iff_eq] at hsome
  exact ⟨List.mem_of_find?_eq_some h, hsome⟩

/-- A path that is listed is listed under a text. -/
theorem exists_listedAs? {p : Path} (h : p ∈ filesWith g d root includes ignores tests) :
    ∃ text, listedAs? g d root includes ignores tests p = some text := by
  obtain ⟨-, text, hfound, hrefused, rfl⟩ := mem_filesWith.mp h
  refine Option.isSome_iff_exists.mp (List.find?_isSome.mpr ⟨text, hfound, ?_⟩)
  rw [hrefused, beq_self_eq_true]
  rfl

/-- The files are those without the pattern less those that are listed under a text that it
    ignores. -/
def TakesAway (g : Globs) (d : Disk) (root : String) (includes ignores : List String)
    (tests : Bool) (pattern : String) : Prop :=
  filesWith g d root includes (pattern :: ignores) tests =
    (filesWith g d root includes ignores tests).filter fun p =>
      !(listedAs? g d root includes ignores tests p).any (ignoredBy g root pattern)

/-- A pattern takes away what it ignores exactly if it ignores the files that are listed under a text
    that it ignores under all the texts under which they are found. -/
theorem takesAway_iff {pattern : String} : TakesAway g d root includes ignores tests pattern ↔
    ∀ text ∈ foundWith g d root includes, refused g root ignores tests text = false →
      (ofText text).isSource = true → ∀ listed,
        listedAs? g d root includes ignores tests (ofText text) = some listed →
          ignoredBy g root pattern listed = true → ignoredBy g root pattern text = true := by
  constructor
  · intro h text hfound hrefused hsource listed hlisted hignored
    -- Otherwise the file stays under this text, although it was listed under an ignored one.
    by_contra hnot
    have hmem : ofText text ∈ filesWith g d root includes (pattern :: ignores) tests := by
      refine mem_filesWith.mpr ⟨hsource, text, hfound, ?_, rfl⟩
      rw [refused_cons, hrefused, Bool.or_false]
      exact eq_false_of_ne_true hnot
    rw [h, List.mem_filter, hlisted, Option.any_some, hignored] at hmem
    exact Bool.false_ne_true hmem.2
  · intro h
    refine (inOrder_filesWith g d root includes (pattern :: ignores) tests).eq_of_mem_iff
      (List.Pairwise.filter _ (inOrder_filesWith g d root includes ignores tests)) ?_
    intro p
    rw [List.mem_filter]
    constructor
    · intro hp
      obtain ⟨hsource, text, hfound, hrefused, rfl⟩ := mem_filesWith.mp hp
      rw [refused_cons, Bool.or_eq_false_iff] at hrefused
      have hlist : ofText text ∈ filesWith g d root includes ignores tests :=
        mem_filesWith.mpr ⟨hsource, text, hfound, hrefused.2, rfl⟩
      obtain ⟨listed, hlisted⟩ := exists_listedAs? hlist
      refine ⟨hlist, ?_⟩
      rw [hlisted, Option.any_some, Bool.not_eq_true']
      cases hignored : ignoredBy g root pattern listed with
      | false => rfl
      | true =>
          rw [h text hfound hrefused.2 hsource listed hlisted hignored] at hrefused
          cases hrefused.1
    · rintro ⟨hlist, hkept⟩
      obtain ⟨listed, hlisted⟩ := exists_listedAs? hlist
      obtain ⟨hfound, hrefused, hpath⟩ := of_listedAs? hlisted
      rw [hlisted, Option.any_some, Bool.not_eq_true'] at hkept
      refine mem_filesWith.mpr ⟨(mem_filesWith.mp hlist).1, listed, hfound, ?_, hpath⟩
      rw [refused_cons, hkept, hrefused]
      rfl

/-- A pattern without wildcards takes away the files at or below its place. -/
theorem filesWith_cons_place {pattern : String} (h : Glob.hasWildcard pattern = false) :
    filesWith g d root includes (pattern :: ignores) tests =
      (filesWith g d root includes ignores tests).filter fun p =>
        !Path.isUnder (ofText (joinText root pattern)) p := by
  have hignored : ∀ text, ignoredBy g root pattern text =
      Path.isUnder (ofText (joinText root pattern)) (ofText text) := by
    intro text
    rw [ignoredBy, h, if_neg Bool.false_ne_true]
  -- A place covers paths, so all the texts of a file are ignored together.
  have htakes : TakesAway g d root includes ignores tests pattern := by
    refine takesAway_iff.mpr ?_
    intro text _ _ _ listed hlisted
    rw [hignored, hignored, (of_listedAs? hlisted).2.2]
    exact id
  rw [htakes]
  refine List.filter_congr ?_
  intro p hp
  obtain ⟨listed, hlisted⟩ := exists_listedAs? hp
  rw [hlisted, Option.any_some, hignored, (of_listedAs? hlisted).2.2]

/-- At places whose texts are plain, every file is found under a plain text. -/
theorem isPlain_of_mem_foundWith (hproper : d.root.Proper)
    (hplain : ∀ place ∈ placesWith g d root includes, Path.IsPlain place) {text : String}
    (h : text ∈ foundWith g d root includes) : Path.IsPlain text := by
  obtain ⟨place, hplace, htext⟩ := List.mem_flatMap.mp h
  obtain ⟨-, -, names, hnames, rfl⟩ := isFile_of_mem_filesAt hproper htext
  exact (hplain place hplace).foldl_joinText fun n hn => (hnames n hn).1

/-- At places whose texts are plain, every pattern takes away what it ignores. -/
theorem takesAway_of_plain (hproper : d.root.Proper)
    (hplain : ∀ place ∈ placesWith g d root includes, Path.IsPlain place) (pattern : String) :
    TakesAway g d root includes ignores tests pattern := by
  refine takesAway_iff.mpr ?_
  intro text hfound _ _ listed hlisted hignored
  obtain ⟨hlistedFound, -, hpath⟩ := of_listedAs? hlisted
  -- A plain text is told by its path, so the file is found under no other text.
  have hsame : listed = text := by
    rw [← isPlain_of_mem_foundWith hproper hplain hlistedFound, hpath,
      isPlain_of_mem_foundWith hproper hplain hfound]
  rw [← hsame]
  exact hignored

/-- More patterns list no more files. -/
theorem filesWith_mono {more : List String} (h : ignores ⊆ more) :
    filesWith g d root includes more tests ⊆ filesWith g d root includes ignores tests := by
  intro p hp
  obtain ⟨hsource, text, hfound, hrefused, hpath⟩ := mem_filesWith.mp hp
  refine mem_filesWith.mpr ⟨hsource, text, hfound, ?_, hpath⟩
  refine eq_false_of_ne_true fun hless => ?_
  rw [refused_mono h hless] at hrefused
  cases hrefused

/-- Neither the order of ignore patterns nor their repetition matters. -/
theorem filesWith_same_ignores {others : List String}
    (h : ∀ pattern, pattern ∈ ignores ↔ pattern ∈ others) :
    filesWith g d root includes ignores tests = filesWith g d root includes others tests := by
  refine (inOrder_filesWith g d root includes ignores tests).eq_of_mem_iff
    (inOrder_filesWith g d root includes others tests) ?_
  intro p
  constructor
  · intro hp
    exact filesWith_mono (fun pattern hpattern => (h pattern).mpr hpattern) hp
  · intro hp
    exact filesWith_mono (fun pattern hpattern => (h pattern).mp hpattern) hp

/-! ## The scan -/

/-- What a path that is listed stands for: a regular file with the extension of a source, with no
    component that is left out of the walk at or below the place where it was found. -/
structure IsScannedFile (d : Disk) (places : List String) (p : Path) : Prop where
  isFile : d.isFile p.text = true
  isSource : p.isSource = true
  entered : ∃ place ∈ places, (ofText place).fileName? ≠ some "node_modules" ∧
    ∃ names : List String, "node_modules" ∉ names ∧
      p = ⟨(ofText place).components ++ names.map .name⟩

/-- On a disk whose directories hold distinct names, the listed paths stand for files. -/
theorem isScannedFile_of_mem (hproper : d.root.Proper) {p : Path}
    (h : p ∈ filesWith g d root includes ignores tests) :
    IsScannedFile d (placesWith g d root includes) p := by
  obtain ⟨hsource, text, hfound, -, rfl⟩ := mem_filesWith.mp h
  obtain ⟨place, hplace, htext⟩ := List.mem_flatMap.mp hfound
  obtain ⟨hfile, hentered, names, hnames, rfl⟩ := isFile_of_mem_filesAt hproper htext
  refine ⟨Disk.isFile_text_ofText hfile, hsource, place, hplace, ?_, names, ?_, ?_⟩
  · intro hname
    rw [hname] at hentered
    exact absurd hentered (by decide)
  · intro hmem
    exact absurd (hnames _ hmem).2 (by decide)
  · exact Path.ofText_foldl_joinText (fun n hn => (hnames n hn).1) place

/-- A scan is a filter over a union: more includes add their files, and a pattern takes away files.
    It takes away what it ignores if it has no wildcards, or if the texts of the scanned places are
    plain; in general, exactly if it ignores the files that are listed under a text that it ignores
    under all their texts. -/
structure FilterOverUnion (g : Globs) (d : Disk) (root : String) (tests : Bool) : Prop where
  union : ∀ A B ignores, A ≠ [] → B ≠ [] →
    filesWith g d root (A ++ B) ignores tests =
      collect (filesWith g d root A ignores tests ++ filesWith g d root B ignores tests)
  includes : ∀ A B ignores, A ≠ [] → (∀ i, i ∈ A ↔ i ∈ B) →
    filesWith g d root A ignores tests = filesWith g d root B ignores tests
  place : ∀ includes ignores pattern, Glob.hasWildcard pattern = false →
    filesWith g d root includes (pattern :: ignores) tests =
      (filesWith g d root includes ignores tests).filter fun p =>
        !Path.isUnder (ofText (joinText root pattern)) p
  plain : d.root.Proper → ∀ includes, (∀ place ∈ placesWith g d root includes, Path.IsPlain place) →
    ∀ ignores pattern, TakesAway g d root includes ignores tests pattern
  pattern : ∀ includes ignores pattern, TakesAway g d root includes ignores tests pattern ↔
    ∀ text ∈ foundWith g d root includes, refused g root ignores tests text = false →
      (ofText text).isSource = true → ∀ listed,
        listedAs? g d root includes ignores tests (ofText text) = some listed →
          ignoredBy g root pattern listed = true → ignoredBy g root pattern text = true
  fewer : ∀ includes ignores more, ignores ⊆ more →
    filesWith g d root includes more tests ⊆ filesWith g d root includes ignores tests
  ignores : ∀ includes ignores others, (∀ pattern, pattern ∈ ignores ↔ pattern ∈ others) →
    filesWith g d root includes ignores tests = filesWith g d root includes others tests
  order : ∀ includes ignores, InOrder (filesWith g d root includes ignores tests)
  files : d.root.Proper → ∀ includes ignores, ∀ p ∈ filesWith g d root includes ignores tests,
    IsScannedFile d (placesWith g d root includes) p

/-- **Scanning**: whatever wildcards mean, the files of a project are a filter over a union, and the
    files that are scanned on a disk are those with the wildcards of the disk. -/
theorem scan_filters_union (d : Disk) (root : String) (tests : Bool) :
    (∀ g, FilterOverUnion g d root tests) ∧ ∀ includes ignores,
      files d root includes ignores tests =
        filesWith (.onDisk d) d root includes ignores tests := by
  refine ⟨?_, fun includes ignores => files_eq_filesWith d root includes ignores tests⟩
  intro g
  constructor
  case union =>
    intro A B ignores hA hB
    exact filesWith_append hA hB
  case includes =>
    intro A B ignores hA h
    exact filesWith_same_includes hA h
  case place =>
    intro includes ignores pattern hplain
    exact filesWith_cons_place hplain
  case plain =>
    intro hproper includes hplain ignores pattern
    exact takesAway_of_plain hproper hplain pattern
  case pattern =>
    intro includes ignores pattern
    exact takesAway_iff
  case fewer =>
    intro includes ignores more h
    exact filesWith_mono h
  case ignores =>
    intro includes ignores others h
    exact filesWith_same_ignores h
  case order =>
    intro includes ignores
    exact inOrder_filesWith g d root includes ignores tests
  case files =>
    intro hproper includes ignores p hp
    exact isScannedFile_of_mem hproper hp

end ElementCatalog.Scan
