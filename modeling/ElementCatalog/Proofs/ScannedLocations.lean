import ElementCatalog.Project.Analysis
import ElementCatalog.Proofs.ScannedFiles
import Mathlib.Data.List.Dedup

/-!
# Scanned locations — which files the listed paths denote

Toward: every listed path leads to a file, but paths are told apart, and ignored, by how they are
spelled.  So a file is listed once, and is not listed at or below an ignored place, exactly if the
places that have it in common are spelled alike.  The route:

* a path is listed from a text that was found at a place, with names behind it, and it leads where
  this text leads (`ListedAt.exists_names`, `location_of_mem`);
* two places that have a file in common lie one below the other, so the names behind them part where
  they meet (`exists_rest`);
* from there on the paths are the same, so they are compared down to where the places meet
  (`meeting`): for two places this tells whether the file is listed twice (`ListedAt.ofText_eq_iff`),
  and for an ignored one whether it covers the file (`isUnder_iff_meeting`).
-/

namespace ElementCatalog.Scan

open ElementCatalog.Path (joinText ofText IsName)

/-! ## Meeting places -/

/-- The location that a text leads to, seen from the working directory. -/
def locationOf (d : Disk) (text : String) : Location :=
  (ofText text).locationFrom d.home

/-- The names from a location down to another one, if this lies below it. -/
def wayDown (start stop : Location) : List String :=
  (stop.take (stop.length - start.length)).reverse

/-- The path of a place, down to where it meets another one. -/
def meeting (d : Disk) (place other : String) : Path :=
  ⟨(ofText place).components ++ (wayDown (locationOf d place) (locationOf d other)).map .name⟩

/-- Two places are spelled alike where they meet. -/
def SpelledAlike (d : Disk) (place other : String) : Prop :=
  meeting d place other = meeting d other place

/-- The way down is not longer than it has to be. -/
theorem length_wayDown (start stop : Location) :
    (wayDown start stop).length = stop.length - start.length := by
  rw [wayDown, List.length_reverse, List.length_take]
  exact Nat.min_eq_left (Nat.sub_le _ _)

/-- Two locations with something in common below them lie one below the other, and the names to it
    are the same from where they meet. -/
theorem exists_rest {start stop : Location} {names others : List String}
    (h : names.reverse ++ start = others.reverse ++ stop) :
    ∃ rest, names = wayDown start stop ++ rest ∧ others = wayDown stop start ++ rest := by
  rcases List.append_eq_append_iff.mp h with ⟨between, hothers, rfl⟩ | ⟨between, hnames, rfl⟩
  · -- The second location is above, so the names behind it first lead to the first one.
    refine ⟨names, ?_, ?_⟩
    · simp [wayDown]
    · rw [← List.reverse_reverse others, hothers, wayDown, List.length_append,
        Nat.add_sub_cancel, List.take_left, List.reverse_append, List.reverse_reverse]
  · refine ⟨others, ?_, ?_⟩
    · rw [← List.reverse_reverse names, hnames, wayDown, List.length_append,
        Nat.add_sub_cancel, List.take_left, List.reverse_append, List.reverse_reverse]
    · simp [wayDown]

/-- Names behind a place lead down from its location. -/
theorem locationFrom_append_names (p : Path) (names : List String) (start : Location) :
    (⟨p.components ++ names.map .name⟩ : Path).locationFrom start =
      names.reverse ++ p.locationFrom start := by
  rw [Path.locationFrom, List.foldl_append, Path.foldl_step_names]
  rfl

/-- Where a place meets another one is at its location or below it, and not above the other one. -/
theorem locationFrom_meeting (d : Disk) (place other : String) :
    (meeting d place other).locationFrom d.home =
      (wayDown (locationOf d place) (locationOf d other)).reverse ++ locationOf d place :=
  locationFrom_append_names (ofText place) _ _

/-- Names behind the path down to where a place meets another one lead to the other one only if there
    are none. -/
theorem eq_nil_of_meeting {d : Disk} {place other : String} {names : List String}
    (h : ofText other = ⟨(meeting d place other).components ++ names.map .name⟩) : names = [] := by
  have hlocation : locationOf d other =
      names.reverse ++ (meeting d place other).locationFrom d.home := by
    rw [← locationFrom_append_names, ← h]
    rfl
  rw [locationFrom_meeting] at hlocation
  have hlength := congrArg List.length hlocation
  simp only [List.length_append, List.length_reverse, length_wayDown] at hlength
  exact List.length_eq_zero_iff.mp (by omega)

/-- A path below a place, at or below the location of another one, is spelled with the other one
    exactly if the place is, down to where they meet. -/
theorem isUnder_iff_meeting {d : Disk} {place other : String} {names : List String}
    (h : locationOf d other <:+ names.reverse ++ locationOf d place) :
    Path.isUnder (ofText other) ⟨(ofText place).components ++ names.map .name⟩ = true ↔
      Path.isUnder (ofText other) (meeting d place other) = true := by
  obtain ⟨front, hfront⟩ := h
  rw [← List.reverse_reverse front] at hfront
  obtain ⟨rest, hnames, -⟩ := exists_rest hfront.symm
  have hlonger : (ofText place).components ++ names.map .name =
      (meeting d place other).components ++ rest.map .name := by
    rw [hnames, List.map_append, ← List.append_assoc]
    rfl
  rw [hlonger, Path.isUnder, Path.isUnder, List.isPrefixOf_iff_prefix, List.isPrefixOf_iff_prefix]
  constructor
  · intro hprefix
    rcases List.prefix_or_prefix_of_prefix hprefix (List.prefix_append _ _) with hup | hdown
    · exact hup
    · -- The other place would be spelled with names that lead on from where they meet.
      obtain ⟨more, hmore⟩ := hdown
      rw [← hmore] at hprefix
      obtain ⟨behind, -, rfl⟩ := List.prefix_map_iff.mp
        ((List.prefix_append_right_inj _).mp hprefix)
      rw [eq_nil_of_meeting (congrArg Path.mk hmore.symm), List.map_nil, List.append_nil] at hmore
      exact hmore ▸ List.prefix_refl _
  · intro hprefix
    exact hprefix.trans (List.prefix_append _ _)

/-! ## Listed texts -/

variable {d : Disk} {root : String} {config : Config}

/-- The places that are scanned for a configuration. -/
def places (d : Disk) (root : String) (config : Config) : List String :=
  placesWith (.onDisk d) d root config.includes

/-- The paths that are listed for a configuration. -/
def listed (d : Disk) (root : String) (config : Config) : List Path :=
  files d root config.includes config.ignores config.ignoreTestFiles

/-- The files that the listed paths denote, by their locations. -/
def locations (d : Disk) (root : String) (config : Config) : List Location :=
  (listed d root config).map (·.locationFrom d.home)

/-- The patterns of a configuration. -/
def patterns (config : Config) : List String :=
  config.ignores ++ if config.ignoreTestFiles then testFilePatterns else []

/-- A source file is found at a place under a text that none of the patterns ignores. -/
structure FoundAt (d : Disk) (root : String) (patterns : List String) (place text : String) :
    Prop where
  found : text ∈ filesAt d place
  isSource : (ofText text).isSource = true
  kept : ∀ pattern ∈ patterns, ignoredBy (.onDisk d) root pattern text = false

/-- A path is listed exactly if a place has a source file under a text that it is read from. -/
theorem mem_listed {p : Path} : p ∈ listed d root config ↔
    ∃ place ∈ places d root config, ∃ text,
      FoundAt d root (patterns config) place text ∧ ofText text = p := by
  have hrefused : ∀ text, refused (.onDisk d) root config.ignores config.ignoreTestFiles text =
      false ↔ ∀ pattern ∈ patterns config, ignoredBy (.onDisk d) root pattern text = false := by
    intro text
    rw [refused, List.any_eq_false]
    simp [patterns]
  rw [listed, files_eq_filesWith, mem_filesWith]
  constructor
  · rintro ⟨hsource, text, hfound, hkept, rfl⟩
    obtain ⟨place, hplace, htext⟩ := List.mem_flatMap.mp hfound
    exact ⟨place, hplace, text, ⟨htext, hsource, (hrefused text).mp hkept⟩, rfl⟩
  · rintro ⟨place, hplace, text, hfound, rfl⟩
    exact ⟨hfound.isSource, text, List.mem_flatMap.mpr ⟨place, hplace, hfound.found⟩,
      (hrefused text).mpr hfound.kept, rfl⟩

/-- The files that are listed are those that are found at the places. -/
theorem mem_locations {l : Location} : l ∈ locations d root config ↔
    ∃ place ∈ places d root config, ∃ text,
      FoundAt d root (patterns config) place text ∧ locationOf d text = l := by
  rw [locations, List.mem_map]
  constructor
  · rintro ⟨p, hp, rfl⟩
    obtain ⟨place, hplace, text, hfound, rfl⟩ := mem_listed.mp hp
    exact ⟨place, hplace, text, hfound, rfl⟩
  · rintro ⟨place, hplace, text, hfound, rfl⟩
    exact ⟨_, mem_listed.mpr ⟨place, hplace, text, hfound, rfl⟩, rfl⟩

variable (hproper : d.root.Proper)

include hproper

/-- A file that is found at a place lies there behind names. -/
theorem exists_names_of_mem_filesAt {place text : String} (h : text ∈ filesAt d place) :
    ∃ names : List String, ofText text = ⟨(ofText place).components ++ names.map .name⟩ ∧
      locationOf d text = names.reverse ++ locationOf d place := by
  obtain ⟨-, -, names, hnames, rfl⟩ := isFile_of_mem_filesAt hproper h
  have hpath := Path.ofText_foldl_joinText (fun n hn => (hnames n hn).1) place
  refine ⟨names, hpath, ?_⟩
  rw [locationOf, hpath, locationFrom_append_names]
  rfl

/-- A listed path leads to a file at its location. -/
theorem location_of_mem {p : Path} (h : p ∈ listed d root config) :
    d.isFile p.text = true ∧ d.location? p.text = some (p.locationFrom d.home) := by
  obtain ⟨place, -, text, hfound, rfl⟩ := mem_listed.mp h
  have hfile := Disk.isFile_text_ofText (isFile_of_mem_filesAt hproper hfound.found).1
  obtain ⟨trail, content, hfollow, -⟩ := Disk.isFile_iff.mp hfile
  refine ⟨hfile, ?_⟩
  rw [Disk.location_of_follow hfollow, (Path.isSpelled_ofText text).ofText_text]

/-- A file that two places have in common is found under one path exactly if they are spelled
    alike. -/
theorem ofText_eq_iff {place other text text' : String} (h : text ∈ filesAt d place)
    (h' : text' ∈ filesAt d other) (hsame : locationOf d text = locationOf d text') :
    ofText text = ofText text' ↔ SpelledAlike d place other := by
  obtain ⟨names, hpath, hlocation⟩ := exists_names_of_mem_filesAt hproper h
  obtain ⟨names', hpath', hlocation'⟩ := exists_names_of_mem_filesAt hproper h'
  rw [hlocation, hlocation'] at hsame
  obtain ⟨rest, rfl, rfl⟩ := exists_rest hsame
  rw [hpath, hpath', SpelledAlike, meeting, meeting, Path.mk.injEq, Path.mk.injEq, List.map_append,
    List.map_append, ← List.append_assoc, ← List.append_assoc, List.append_left_inj]

/-! ## Files that are listed once -/

/-- The places of a configuration are spelled alike where they have a listed file in common. -/
def EachSpelledAlike (d : Disk) (root : String) (config : Config) : Prop :=
  ∀ place ∈ places d root config, ∀ other ∈ places d root config, ∀ text text',
    FoundAt d root (patterns config) place text → FoundAt d root (patterns config) other text' →
      locationOf d text = locationOf d text' → SpelledAlike d place other

/-- No file is listed twice exactly if the places are spelled alike. -/
theorem nodup_locations_iff :
    (locations d root config).Nodup ↔ EachSpelledAlike d root config := by
  have hnodup : (listed d root config).Nodup := by
    rw [listed, files_eq_filesWith]
    exact (inOrder_filesWith _ d root _ _ _).nodup
  rw [locations, List.nodup_map_iff_inj_on hnodup]
  constructor
  · intro h place hplace other hother text text' hfound hfound' hsame
    refine (ofText_eq_iff hproper hfound.found hfound'.found hsame).mp ?_
    exact h _ (mem_listed.mpr ⟨place, hplace, text, hfound, rfl⟩) _
      (mem_listed.mpr ⟨other, hother, text', hfound', rfl⟩) hsame
  · intro h p hp q hq hsame
    obtain ⟨place, hplace, text, hfound, rfl⟩ := mem_listed.mp hp
    obtain ⟨other, hother, text', hfound', rfl⟩ := mem_listed.mp hq
    exact (ofText_eq_iff hproper hfound.found hfound'.found hsame).mpr
      (h place hplace other hother text text' hfound hfound' hsame)

/-- The scanned files are counted exactly if none is listed twice. -/
theorem filesScanned_eq_iff : (Analysis.ofRoot d root config).filesScanned =
    (locations d root config).dedup.length ↔ EachSpelledAlike d root config := by
  have hcount : (Analysis.ofRoot d root config).filesScanned = (locations d root config).length :=
    (List.length_map _).symm
  rw [hcount, ← nodup_locations_iff hproper]
  constructor
  · intro h
    rw [← (List.dedup_sublist _).eq_of_length h.symm]
    exact List.nodup_dedup _
  · intro h
    rw [List.dedup_eq_self.mpr h]

/-! ## Ignored places -/

omit hproper in
/-- A pattern without wildcards ignores what is spelled with its place. -/
theorem ignoredBy_place {pattern : String} (h : Glob.hasWildcard pattern = false) (text : String) :
    ignoredBy (.onDisk d) root pattern text =
      Path.isUnder (ofText (joinText root pattern)) (ofText text) := by
  rw [ignoredBy, h, if_neg Bool.false_ne_true]

/-- Nothing is listed at or below an ignored place exactly if its pattern, down to where it meets a
    place, is spelled like the place, unless the other patterns ignore what is found there. -/
theorem forall_not_below_iff {pattern : String} (hmem : pattern ∈ config.ignores)
    (hplain : Glob.hasWildcard pattern = false) :
    (∀ l ∈ locations d root config, ¬locationOf d (joinText root pattern) <:+ l) ↔
      ∀ place ∈ places d root config, ∀ text,
        FoundAt d root ((patterns config).filter (· ≠ pattern)) place text →
          locationOf d (joinText root pattern) <:+ locationOf d text →
            Path.isUnder (ofText (joinText root pattern))
              (meeting d place (joinText root pattern)) = true := by
  constructor
  · intro h place hplace text hfound hbelow
    obtain ⟨names, hpath, hlocation⟩ := exists_names_of_mem_filesAt hproper hfound.found
    rw [← isUnder_iff_meeting (hlocation ▸ hbelow), ← hpath, ← ignoredBy_place hplain]
    by_contra hnot
    -- Then no pattern ignores the text, so the file would be listed.
    refine h _ (mem_locations.mpr ⟨place, hplace, text, ?_, rfl⟩) hbelow
    refine ⟨hfound.found, hfound.isSource, fun other hother => ?_⟩
    by_cases hsame : other = pattern
    · rw [hsame]
      exact eq_false_of_ne_true hnot
    · exact hfound.kept other (List.mem_filter.mpr ⟨hother, by simpa using hsame⟩)
  · intro h l hl hbelow
    obtain ⟨place, hplace, text, hfound, rfl⟩ := mem_locations.mp hl
    obtain ⟨names, hpath, hlocation⟩ := exists_names_of_mem_filesAt hproper hfound.found
    have hothers : FoundAt d root ((patterns config).filter (· ≠ pattern)) place text :=
      ⟨hfound.found, hfound.isSource, fun other hother =>
        hfound.kept other (List.mem_of_mem_filter hother)⟩
    have hignored := hfound.kept pattern (List.mem_append_left _ hmem)
    rw [ignoredBy_place hplain, hpath, (isUnder_iff_meeting (hlocation ▸ hbelow)).mpr
      (h place hplace text hothers hbelow)] at hignored
    cases hignored

/-! ## Plain spellings -/

omit hproper

/-- A text is spelled from a head: nothing but names stands behind it. -/
def IsSpelledFrom (head : List PathComponent) (text : String) : Prop :=
  ∃ names : List String, (ofText text).components = head ++ names.map .name

/-- Places with one head are spelled alike where they have something in common. -/
theorem spelledAlike_of_head {head : List PathComponent} {place other : String}
    (h : IsSpelledFrom head place) (h' : IsSpelledFrom head other) {names others : List String}
    (hsame : names.reverse ++ locationOf d place = others.reverse ++ locationOf d other) :
    SpelledAlike d place other := by
  obtain ⟨inner, hinner⟩ := h
  obtain ⟨inner', hinner'⟩ := h'
  have hlocation {text : String} {inner : List String}
      (h : (ofText text).components = head ++ inner.map .name) :
      locationOf d text = inner.reverse ++ (⟨head⟩ : Path).locationFrom d.home := by
    rw [← locationFrom_append_names, ← h]
    rfl
  obtain ⟨rest, hnames, hothers⟩ := exists_rest hsame
  rw [hnames, hothers, List.reverse_append, List.reverse_append, List.append_assoc,
    List.append_assoc, List.append_right_inj] at hsame
  -- Both meet at one location, and behind the head there are only its names.
  have hmeet : inner ++ wayDown (locationOf d place) (locationOf d other) =
      inner' ++ wayDown (locationOf d other) (locationOf d place) := by
    refine List.reverse_injective ?_
    rw [List.reverse_append, List.reverse_append]
    refine (List.append_left_inj ((⟨head⟩ : Path).locationFrom d.home)).mp ?_
    rw [List.append_assoc, List.append_assoc, ← hlocation hinner, ← hlocation hinner']
    exact hsame
  rw [SpelledAlike, meeting, meeting, hinner, hinner', List.append_assoc, List.append_assoc,
    ← List.map_append, ← List.map_append, hmeet]

/-- A place that is spelled like another one is spelled with it. -/
theorem SpelledAlike.isUnder {place other : String} (h : SpelledAlike d place other) :
    Path.isUnder (ofText other) (meeting d place other) = true := by
  rw [h, Path.isUnder, List.isPrefixOf_iff_prefix]
  exact List.prefix_append _ _

/-! ## The scan -/

/-- What the paths that are listed for a configuration denote.  They lead to files.  A file is listed
    once, and so the scanned files are counted, exactly if the places that have it in common are
    spelled alike; nothing is listed at or below the place of a pattern exactly if the places are
    spelled with it there.  With one head and only names behind it, all are. -/
structure DenotesFiles (d : Disk) (root : String) (config : Config) : Prop where
  denotes : ∀ p ∈ listed d root config,
    d.isFile p.text = true ∧ d.location? p.text = some (p.locationFrom d.home)
  once : (locations d root config).Nodup ↔ EachSpelledAlike d root config
  counted : (Analysis.ofRoot d root config).filesScanned = (locations d root config).dedup.length ↔
    EachSpelledAlike d root config
  ignored : ∀ pattern ∈ config.ignores, Glob.hasWildcard pattern = false →
    ((∀ l ∈ locations d root config, ¬locationOf d (joinText root pattern) <:+ l) ↔
      ∀ place ∈ places d root config, ∀ text,
        FoundAt d root ((patterns config).filter (· ≠ pattern)) place text →
          locationOf d (joinText root pattern) <:+ locationOf d text →
            Path.isUnder (ofText (joinText root pattern))
              (meeting d place (joinText root pattern)) = true)
  plain : ∀ head, (∀ place ∈ places d root config, IsSpelledFrom head place) →
    (locations d root config).Nodup ∧
      ∀ pattern ∈ config.ignores, Glob.hasWildcard pattern = false →
        IsSpelledFrom head (joinText root pattern) →
          ∀ l ∈ locations d root config, ¬locationOf d (joinText root pattern) <:+ l

/-- **Scanned locations**: on a disk whose directories hold distinct names, the listed paths denote
    files, each of them once and none that is ignored where places and patterns are spelled alike. -/
theorem scan_denotes_files (d : Disk) (root : String) (config : Config)
    (hproper : d.root.Proper) : DenotesFiles d root config := by
  constructor
  case denotes =>
    intro p hp
    exact location_of_mem hproper hp
  case once =>
    exact nodup_locations_iff hproper
  case counted =>
    exact filesScanned_eq_iff hproper
  case ignored =>
    intro pattern hmem hplain
    exact forall_not_below_iff hproper hmem hplain
  case plain =>
    intro head hplaces
    constructor
    · refine (nodup_locations_iff hproper).mpr ?_
      intro place hplace other hother text text' hfound hfound' hsame
      obtain ⟨names, -, hlocation⟩ := exists_names_of_mem_filesAt hproper hfound.found
      obtain ⟨names', -, hlocation'⟩ := exists_names_of_mem_filesAt hproper hfound'.found
      rw [hlocation, hlocation'] at hsame
      exact spelledAlike_of_head (hplaces place hplace) (hplaces other hother) hsame
    · intro pattern hmem hplain hpattern
      refine (forall_not_below_iff hproper hmem hplain).mpr ?_
      intro place hplace text hfound hbelow
      obtain ⟨names, -, hlocation⟩ := exists_names_of_mem_filesAt hproper hfound.found
      rw [hlocation] at hbelow
      obtain ⟨front, hfront⟩ := hbelow
      rw [← List.reverse_reverse front] at hfront
      exact (spelledAlike_of_head (hplaces place hplace) hpattern hfront.symm).isUnder

/-- A project with two directories and one source file. -/
def twoDirectories : Disk :=
  { root := .directory [("project", .directory
      [("lib", .directory []), ("src", .directory [("a.ts", .file (some "export {};"))])])]
    workingDirectory := "/project" }

/-- The directory of its file is included under two spellings, and ignored under one of them. -/
def twoSpellings : Config :=
  { includes := ["src", "lib/../src"], ignores := ["src"], ignoreTestFiles := false }

/-- The directories hold distinct names. -/
theorem proper_twoDirectories : twoDirectories.root.Proper := by
  refine .directory (by decide) (by decide +kernel) (List.forall_mem_singleton.mpr ?_)
  refine .directory (by decide) (by decide +kernel) (List.forall_mem_cons.mpr ⟨?_, ?_⟩)
  · exact .directory (by decide) (by decide +kernel) (List.forall_mem_nil _)
  · exact List.forall_mem_singleton.mpr
      (.directory (by decide) (by decide +kernel) (List.forall_mem_singleton.mpr (.file _)))

/-- The file is listed under the spelling that is not ignored. -/
theorem mem_locations_twoSpellings :
    ["a.ts", "src", "project"] ∈ locations twoDirectories "/project" twoSpellings := by
  have hplace : ofText "/project/lib/../src" =
      ⟨[.root, .name "project", .name "lib", .up, .name "src"]⟩ := by
    rw [ofText, Text.splitOn_slash]
    decide +kernel
  have hignored : ofText (joinText "/project" "src") = ⟨[.root, .name "project", .name "src"]⟩ := by
    rw [ofText, Text.splitOn_slash]
    decide +kernel
  have hname : IsName "a.ts" := by decide +kernel
  have htext := hname.ofText_joinText "/project/lib/../src"
  rw [hplace] at htext
  refine mem_locations.mpr ⟨"/project/lib/../src", ?_, joinText "/project/lib/../src" "a.ts",
    ⟨?_, ?_, ?_⟩, ?_⟩
  · refine List.mem_flatMap.mpr ⟨"lib/../src", by decide, ?_⟩
    rw [← included_eq_includedWith, included, Disk.exists, Disk.find?, Disk.follow,
      Text.splitOn_slash]
    decide +kernel
  · have hfound : filesAt twoDirectories "/project/lib/../src" = ["/project/lib/../src/a.ts"] := by
      rw [filesAt, hplace, Disk.find?, Disk.follow, Text.splitOn_slash]
      decide +kernel
    rw [hfound]
    decide +kernel
  · have hextension : (ofText (joinText "/project/lib/../src" "a.ts")).extension? = some "ts" := by
      rw [htext]
      show (Path.splitName "a.ts").2 = some "ts"
      rw [Path.splitName, Text.splitOn_dot]
      decide +kernel
    rw [Path.isSource, hextension]
    rfl
  · refine List.forall_mem_singleton.mpr ?_
    rw [ignoredBy_place (by decide), htext, hignored]
    rfl
  · rw [locationOf, htext]
    rfl

/-- So it is listed below an ignored directory: the two are not spelled alike. -/
theorem two_spellings_listed : twoDirectories.root.Proper ∧
    ["a.ts", "src", "project"] ∈ locations twoDirectories "/project" twoSpellings ∧
      DenotesFiles twoDirectories "/project" twoSpellings :=
  ⟨proper_twoDirectories, mem_locations_twoSpellings,
    scan_denotes_files twoDirectories "/project" twoSpellings proper_twoDirectories⟩

end ElementCatalog.Scan
