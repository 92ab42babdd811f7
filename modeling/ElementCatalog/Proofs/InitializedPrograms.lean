import ElementCatalog.Proofs.AbsolutePaths
import ElementCatalog.Proofs.InitializedProjects

/-!
# Initialized programs — what is loaded beside a new configuration file

Toward: the program of a project stays when a configuration file is made in its root, unless a source
is shadowed by it that is named from above the root of the file system.  The route:

* a program is told by the modules that are reached and read (`program_eq_of_loads`), and these are
  the same on two disks if the specifiers of modules lead to the same files, or on the one disk to
  nothing but what was scanned and on the other one to no module (`loads_iff_of_targets`);
* scanned files have absolute paths, so whatever they reach has (`isAbsolute_of_reached`), and what
  leads to the new file is its name behind one of two spellings of the root (`exists_front`);
* a specifier that may mean the new file names it (`specifierBase?_eq`), and what it led to before is
  a source whose name goes on behind that of the new file (`cases_of_target?`), which was scanned
  (`mem_scanned_of_longer`), unless it is spelled from above.
-/

namespace ElementCatalog

open ElementCatalog.Path (IsName ofText joinText)
open ConfigFile (fileName isName_fileName)

namespace Program

variable {parse : ModuleParser} {d d' : Disk} {first scanned : List Path}

/-! ## Programs of two disks -/

/-- The file at a path is reached and read as a module. -/
def Loads (parse : ModuleParser) (d : Disk) (first : List Path) (p : Path) (m : Source.Module) :
    Prop :=
  Reached parse d first p ∧ ReadsAs parse d p m

/-- Where the same modules are reached and read, the program is the same. -/
theorem program_eq_of_loads (root : Path)
    (h : ∀ p m, Loads parse d (scanned.map Path.normalize) p m ↔
      Loads parse d' (scanned.map Path.normalize) p m) :
    (loadWith parse d root scanned).1 = (loadWith parse d' root scanned).1 := by
  obtain ⟨final, done, hend, hnodup, hmem, hparsed, -⟩ :=
    exists_loaded parse d root.normalize scanned
  obtain ⟨final', done', hend', hnodup', hmem', hparsed', -⟩ :=
    exists_loaded parse d' root.normalize scanned
  have hfiles {disk : Disk} {done : List Path}
      (hmem : ∀ p, p ∈ done ↔ Reached parse disk (scanned.map Path.normalize) p)
      (file : ParsedFile) :
      file ∈ done.filterMap
          (parsedAt parse disk root.normalize (distinct (scanned.map Path.normalize))) ↔
        ∃ p m, Loads parse disk (scanned.map Path.normalize) p m ∧
          file = ⟨p, m, (pend (distinct (scanned.map Path.normalize)) p).discoverable⟩ := by
    rw [List.mem_filterMap]
    constructor
    · rintro ⟨p, hp, hfile⟩
      obtain ⟨m, hm, rfl⟩ := parsedAt_eq_some_iff.mp hfile
      exact ⟨p, m, ⟨(hmem p).mp hp, hm⟩, rfl⟩
    · rintro ⟨p, m, ⟨hreached, hm⟩, rfl⟩
      exact ⟨p, (hmem p).mpr hreached, parsedAt_eq_some_iff.mpr ⟨m, hm, rfl⟩⟩
  show ofParsed root.normalize
      (loadedWithin parse d root.normalize scanned (roundBound d)).parsed =
    ofParsed root.normalize
      (loadedWithin parse d' root.normalize scanned (roundBound d')).parsed
  rw [hend _ (Nat.le_refl _), hend' _ (Nat.le_refl _), hparsed, hparsed']
  refine ofParsed_eq_of_perm _ (distinctPaths_parsedAt hnodup)
    ((List.perm_ext_iff_of_nodup (List.Nodup.of_map _ (distinctPaths_parsedAt hnodup))
      (List.Nodup.of_map _ (distinctPaths_parsedAt hnodup'))).mpr fun file => ?_)
  rw [hfiles hmem, hfiles hmem']
  exact exists_congr fun p => exists_congr fun m => and_congr_left fun _ => h p m

/-- **Two disks**: the same modules are loaded if the specifiers of modules lead to the same files,
    or to nothing but what was scanned on the one disk, and to no module on the other one. -/
theorem loads_iff_of_targets (hreads : ∀ p m, ReadsAs parse d' p m ↔ ReadsAs parse d p m)
    (htargets : ∀ source m, Loads parse d first source m → ∀ specifier ∈ specifiers m,
      target? d' first source specifier = target? d first source specifier ∨
        (∀ p, target? d first source specifier = some p → p ∈ first) ∧
          ∀ p, target? d' first source specifier = some p → ¬∃ m, ReadsAs parse d p m)
    (p : Path) (m : Source.Module) : Loads parse d first p m ↔ Loads parse d' first p m := by
  have hforward {p : Path} (hreached : Reached parse d first p) :
      ∀ m, ReadsAs parse d p m → Reached parse d' first p := by
    induction hreached with
    | scanned h => exact fun _ _ => .scanned h
    | followed hsource h ih =>
        intro m hm
        obtain ⟨m', hm', specifier, hmem, htarget⟩ := h
        rcases htargets _ m' ⟨hsource, hm'⟩ specifier hmem with hsame | ⟨hbefore, -⟩
        · exact .followed (ih m' hm')
            ⟨m', (hreads _ _).mpr hm', specifier, hmem, hsame.trans htarget⟩
        · exact .scanned (hbefore _ htarget)
  have hback {p : Path} (hreached : Reached parse d' first p) :
      ∀ m, ReadsAs parse d p m → Reached parse d first p := by
    induction hreached with
    | scanned h => exact fun _ _ => .scanned h
    | followed _ h ih =>
        intro m hm
        obtain ⟨m', hm', specifier, hmem, htarget⟩ := h
        have hread := (hreads _ _).mp hm'
        have hsource := ih m' hread
        rcases htargets _ m' ⟨hsource, hread⟩ specifier hmem with hsame | ⟨-, hafter⟩
        · exact .followed hsource ⟨m', hread, specifier, hmem, hsame.symm.trans htarget⟩
        · exact absurd ⟨m, hm⟩ (hafter _ htarget)
  constructor
  · rintro ⟨hreached, hm⟩
    exact ⟨hforward hreached m hm, (hreads p m).mpr hm⟩
  · rintro ⟨hreached, hm⟩
    have hread := (hreads p m).mp hm
    exact ⟨hback hreached m hread, hread⟩

/-- A specifier leads to something that it may mean and that was asked for or is there. -/
theorem known_of_target? {source p : Path} {specifier : String}
    (h : target? d first source specifier = some p) :
    p ∈ Path.fallbackCandidates source specifier ∧ (p ∈ first ∨ d.isFile p.text = true) := by
  rw [target?] at h
  have hknown := List.find?_some h
  exact ⟨List.mem_of_find?_eq_some h,
    (Bool.or_eq_true_iff.mp hknown).imp_left List.contains_iff_mem.mp⟩

/-- From absolute paths only absolute paths are reached. -/
theorem isAbsolute_of_reached (hfirst : ∀ p ∈ first, p.IsAbsolute) {p : Path}
    (h : Reached parse d first p) : p.IsAbsolute := by
  induction h with
  | scanned hmem => exact hfirst _ hmem
  | followed _ h ih =>
      obtain ⟨m, -, specifier, -, htarget⟩ := h
      exact ih.of_mem_fallbackCandidates (List.mem_of_find?_eq_some htarget)

/-- Where anything is reached, something was scanned. -/
theorem exists_scanned_of_reached {p : Path} (h : Reached parse d first p) : ∃ q, q ∈ first := by
  induction h with
  | scanned hmem => exact ⟨_, hmem⟩
  | followed _ _ ih => exact ih

end Program

/-! ## The new file -/

/-- The path of the configuration file that is made at the end of a way. -/
def Disk.configPath (trail : Disk.Trail) : Path :=
  ofText (joinText (plainPath (names trail)) fileName)

namespace Disk.IsBare

variable {d : Disk} {trail : Disk.Trail} {entries : List (String × FileTree)}
  (h : d.IsBare trail entries)

include h

/-- Names behind the directory. -/
theorem ofText_names {others : List String} (hothers : ∀ n ∈ others, IsName n) :
    ofText (others.foldl joinText (plainPath (names trail))) =
      ⟨.root :: (names trail ++ others).map .name⟩ := by
  rw [Path.ofText_foldl_joinText hothers, ofText_plainPath h.isName, List.map_append]
  rfl

/-- The configuration file is one name behind the directory. -/
theorem configPath_eq : configPath trail = ⟨.root :: (names trail ++ [fileName]).map .name⟩ :=
  h.ofText_names (List.forall_mem_singleton.mpr isName_fileName)

/-- A file that lies in the directory is one of its entries. -/
theorem isFile_entry {path n : String} (hn : IsName n)
    (hlocation : (ofText path).locationFrom d.home = n :: trail.map Prod.fst)
    (hfile : d.isFile path = true) : d.isFile (joinText (plainPath (names trail)) n) = true := by
  rw [← Disk.reverse_names, ← List.reverse_concat] at hlocation
  obtain ⟨text, hat⟩ := Disk.exists_at?_of_isFile hlocation hfile
  rw [FileTree.at?_append, h.vacant.directory, Option.bind_some, FileTree.at?] at hat
  rw [Disk.isFile, h.leadsInto.find?_joinText_name hn]
  cases hentry : Dictionary.find? entries n with
  | none =>
      rw [hentry] at hat
      cases hat
  | some tree =>
      rw [hentry] at hat
      cases hat
      rfl

/-- There is no file at or below the place of the configuration file. -/
theorem isFile_below {path : String} (others : List String)
    (hlocation : (ofText path).locationFrom d.home =
      others.reverse ++ fileName :: trail.map Prod.fst) : d.isFile path = false := by
  have hnames : others.reverse ++ fileName :: trail.map Prod.fst =
      (names trail ++ fileName :: others).reverse := by
    rw [List.reverse_append, List.reverse_cons, List.append_assoc, Disk.reverse_names]
    rfl
  rw [← Bool.not_eq_true]
  intro hfile
  obtain ⟨text, hat⟩ := Disk.exists_at?_of_isFile (hlocation.trans hnames) hfile
  rw [h.vacant.at?_eq_none] at hat
  cases hat

/-- What leads to the configuration file once it is made led to no file. -/
theorem isFile_of_leadsToAdded {path : String}
    (hleads : LeadsToAdded d (names trail) fileName Config.defaultText path) :
    d.isFile path = false := by
  have hlocation := hleads.location_eq
  rw [Disk.reverse_names] at hlocation
  exact h.isFile_below [] hlocation

/-- What leads to the configuration file once it is made is its name behind a spelling of the
    directory: the way down from the root, unless it climbs above the root first. -/
theorem exists_front {p : Path} (hnormal : p.IsNormal) (habsolute : p.IsAbsolute)
    (hleads : LeadsToAdded d (names trail) fileName Config.defaultText p.text) :
    ∃ front, p = ⟨front ++ [.name fileName]⟩ ∧ (⟨front⟩ : Path).IsNormal ∧
      (⟨front⟩ : Path).locationFrom d.home = trail.map Prod.fst ∧
        (front = .root :: (names trail).map .name ∨ p = Path.fromAbove (configPath trail)) := by
  have hlocation := hleads.location_eq
  rw [hnormal.ofText_text, ← List.reverse_concat] at hlocation
  have hspelled := hnormal.eq_of_location habsolute hlocation
  rw [← h.configPath_eq] at hspelled
  have hlocated {start : List PathComponent} (hstart : (⟨start⟩ : Path).locationFrom d.home = []) :
      (⟨start ++ (names trail).map .name⟩ : Path).locationFrom d.home = trail.map Prod.fst := by
    rw [Scan.locationFrom_append_names ⟨start⟩, hstart, List.append_nil, Disk.reverse_names]
  rcases hspelled with rfl | rfl
  · refine ⟨[.root] ++ (names trail).map .name, ?_, ⟨[.root], by decide, _, h.isName, rfl⟩,
      hlocated rfl, Or.inl rfl⟩
    rw [h.configPath_eq, List.map_append]
    rfl
  · refine ⟨[.root, .up] ++ (names trail).map .name, ?_,
      ⟨[.root, .up], by decide, _, h.isName, rfl⟩, hlocated rfl, Or.inr rfl⟩
    rw [h.configPath_eq, Path.fromAbove, List.map_append]
    rfl

/-! ## Specifiers -/

variable {first : List Path} {source : Path} {specifier : String}

/-- A specifier leads to the same file if nothing that it may mean is the new file. -/
theorem target?_eq_of_other
    (hother : ∀ p ∈ Path.fallbackCandidates source specifier,
      ¬LeadsToAdded d (names trail) fileName Config.defaultText p.text) :
    Program.target? (d.initialized trail) first source specifier =
      Program.target? d first source specifier := by
  refine List.find?_congr fun p hp => ?_
  have hfile : (d.initialized trail).isFile p.text = d.isFile p.text :=
    Bool.eq_iff_iff.mpr ((Disk.isFile_added_iff h.vacant).trans (or_iff_left (hother p hp)))
  rw [hfile]

omit h in
/-- What a specifier may mean with the name of the configuration file is what it names. -/
theorem specifierBase?_eq {p : Path} (hp : p ∈ Path.fallbackCandidates source specifier)
    (hname : p.fileName? = some fileName) :
    Path.specifierBase? source specifier = some p := by
  have hhidden : ∀ e ∈ Path.moduleExtensions, fileName ≠ "." ++ e := by decide +kernel
  cases hbase : Path.specifierBase? source specifier with
  | none =>
      rw [Path.fallbackCandidates, Path.moduleCandidates, hbase] at hp
      cases hp
  | some base =>
      rcases Path.isSource_of_mem_fallbackCandidates hbase hp with rfl | hsrc | ⟨e, he, hdot⟩
      · rfl
      · rw [ConfigFile.isSource_eq hname] at hsrc
        cases hsrc
      · exact absurd (Option.some.inj (hname.symm.trans hdot)) (hhidden e he)

/-- A specifier that names the configuration file led to what was scanned, or to a source in the
    directory whose name goes on behind that of the configuration file. -/
theorem cases_of_target? {front : List PathComponent} (hfront : (⟨front⟩ : Path).IsNormal)
    (hlocation : (⟨front⟩ : Path).locationFrom d.home = trail.map Prod.fst)
    (hbase : Path.specifierBase? source specifier = some ⟨front ++ [.name fileName]⟩) {p : Path}
    (htarget : Program.target? d first source specifier = some p) :
    p ∈ first ∨ ∃ e ∈ Path.moduleExtensions, p = ⟨front ++ [.name (fileName ++ "." ++ e)]⟩ ∧
      d.isFile (joinText (plainPath (names trail)) (fileName ++ "." ++ e)) = true := by
  obtain ⟨hmem, hscanned | hfile⟩ := Program.known_of_target? htarget
  · exact Or.inl hscanned
  have hconfig : (⟨front ++ [.name fileName]⟩ : Path).IsNormal :=
    hfront.append_name isName_fileName
  have hplace := hfront.locationFrom_concat isName_fileName d.home
  rw [hlocation] at hplace
  obtain ⟨sources, heq, hsources⟩ := Path.fallbackCandidates_eq source specifier
  rw [heq, Path.moduleCandidates, hbase] at hmem
  rcases List.mem_append.mp hmem with hmodule | hemitted
  · rcases List.mem_append.mp hmodule with hmodule | hindex
    · rcases List.mem_cons.mp hmodule with rfl | happended
      · rw [h.isFile_below [] hplace] at hfile
        cases hfile
      · -- The name of the file goes on behind that of the configuration file.
        obtain ⟨e, he, rfl⟩ := List.mem_map.mp happended
        have hname : IsName (fileName ++ ("." ++ e)) :=
          (Path.moduleExtensions_endings e he).1.isName_append isName_fileName.noSlash
        rw [String.append_assoc, hfront.ofText_name_append hname] at hfile ⊢
        rw [← String.append_assoc] at hname hfile ⊢
        have hlonger := hfront.locationFrom_concat hname d.home
        rw [hlocation] at hlonger
        exact Or.inr ⟨e, he, rfl, h.isFile_entry hname hlonger hfile⟩
    · -- There is no directory under the name of the configuration file.
      obtain ⟨e, he, rfl⟩ := List.mem_map.mp hindex
      have hname : IsName ("index." ++ e) := (Path.moduleExtensions_endings e he).2.isName
      have hinside := hconfig.locationFrom_concat hname d.home
      rw [hconfig.ofText_text] at hplace
      rw [hplace] at hinside
      rw [hname.ofText_joinText, hconfig.ofText_text, h.isFile_below [_] hinside] at hfile
      cases hfile
  · obtain ⟨-, base, hbase', e, he, -⟩ := hsources p hemitted
    cases hbase.symm.trans hbase'
    rw [ConfigFile.extension?_eq (Path.fileName?_concat front fileName)] at he
    cases he

/-! ## Programs -/

/-- What is scanned has absolute paths. -/
theorem isAbsolute_of_mem_scanned {buildConfig : Option String} :
    ∀ p ∈ (Scan.listed d (plainPath (names trail)) { buildConfig }).map Path.normalize,
      p.IsAbsolute := by
  intro p hp
  obtain ⟨q, hq, rfl⟩ := List.mem_map.mp hp
  obtain ⟨place, hplace, text, hfound, rfl⟩ := Scan.mem_listed.mp hq
  cases List.mem_singleton.mp hplace
  obtain ⟨-, -, others, hothers, rfl⟩ := Scan.isFile_of_mem_filesAt h.proper hfound.found
  refine Path.IsAbsolute.normalize ?_
  rw [h.ofText_names fun n hn => (hothers n hn).1]
  exact ⟨_, rfl⟩

/-- A source whose name goes on behind that of the configuration file was scanned if anything
    was. -/
theorem mem_scanned_of_longer {buildConfig : Option String} {q : Path}
    (hq : q ∈ Scan.listed d (plainPath (names trail)) { buildConfig }) {e : String}
    (he : e ∈ Path.moduleExtensions)
    (hfile : d.isFile (joinText (plainPath (names trail)) (fileName ++ "." ++ e)) = true) :
    (⟨.root :: (names trail).map .name ++ [.name (fileName ++ "." ++ e)]⟩ : Path) ∈
      (Scan.listed d (plainPath (names trail)) { buildConfig }).map Path.normalize := by
  have hname : IsName (fileName ++ ("." ++ e)) :=
    (Path.moduleExtensions_endings e he).1.isName_append isName_fileName.noSlash
  rw [← String.append_assoc] at hname
  have hpath : ofText (joinText (plainPath (names trail)) (fileName ++ "." ++ e)) =
      ⟨.root :: (names trail ++ [fileName ++ "." ++ e]).map .name⟩ :=
    h.ofText_names (List.forall_mem_singleton.mpr hname)
  refine List.mem_map.mpr ⟨_, h.listed_of_longer hq he hfile, ?_⟩
  rw [hpath, Path.normalize_root, List.map_append]
  rfl

end Disk.IsBare

/-- A module of a project names the configuration file of the root from above the root of the file
    system, and there is a source in the root whose name goes on behind that of the configuration
    file. -/
structure ShadowedFromAbove (d : Disk) (root : String) : Prop where
  named : ∃ file ∈ (Program.load d (ofText root) (Scan.listed d root {})).1.files,
    ∃ specifier ∈ Program.specifiers file.module,
      Path.specifierBase? file.path specifier =
        some (Path.fromAbove (ofText (joinText root fileName)))
  longer : ∃ e ∈ Path.moduleExtensions, d.isFile (joinText root (fileName ++ "." ++ e)) = true

/-- **Programs**: with the configuration file made, the same program is loaded from what is scanned,
    unless a source is shadowed by it that is named from above the root of the file system. -/
theorem Disk.IsBare.program_initialized {d : Disk} {trail : Disk.Trail}
    {entries : List (String × FileTree)} (h : d.IsBare trail entries)
    (hplain : ¬ShadowedFromAbove d (plainPath (names trail))) (buildConfig : Option String) :
    (Program.load (d.initialized trail) (ofText (plainPath (names trail)))
        (Scan.listed d (plainPath (names trail)) { buildConfig })).1 =
      (Program.load d (ofText (plainPath (names trail)))
        (Scan.listed d (plainPath (names trail)) { buildConfig })).1 := by
  have hclosure := Program.isClosureOf_loadWith Source.Module.parse? d
    (ofText (plainPath (names trail))) (Scan.listed d (plainPath (names trail)) { buildConfig })
  refine (Program.program_eq_of_loads _ fun p m => ?_).symm
  refine Program.loads_iff_of_targets (fun p m => h.holds_initialized p.text m) ?_ p m
  rintro source m ⟨hreached, hm⟩ specifier hspecifier
  obtain ⟨file, hfile, rfl, rfl⟩ := (hclosure.files source m).mpr ⟨hreached, hm⟩
  have habsolute := Program.isAbsolute_of_reached h.isAbsolute_of_mem_scanned hreached
  by_cases hother : ∀ p ∈ Path.fallbackCandidates file.path specifier,
      ¬LeadsToAdded d (names trail) fileName Config.defaultText p.text
  · exact Or.inl (h.target?_eq_of_other hother)
  -- The specifier names the new file.
  push Not at hother
  obtain ⟨p, hp, hleads⟩ := hother
  obtain ⟨front, rfl, hfront, hlocation, hspelled⟩ := h.exists_front
    (Path.isNormal_of_mem_fallbackCandidates hp) (habsolute.of_mem_fallbackCandidates hp) hleads
  have hbase := specifierBase?_eq hp (Path.fileName?_concat front fileName)
  refine Or.inr ⟨fun p htarget => ?_, fun p htarget => ?_⟩
  · rcases h.cases_of_target? hfront hlocation hbase htarget with hmem | ⟨e, he, rfl, hlonger⟩
    · exact hmem
    · rcases hspelled with rfl | habove
      · obtain ⟨scanned, hscanned⟩ := Program.exists_scanned_of_reached hreached
        obtain ⟨q, hq, -⟩ := List.mem_map.mp hscanned
        exact h.mem_scanned_of_longer hq he hlonger
      · rw [habove] at hbase
        exact absurd ⟨⟨file, hfile, specifier, hspecifier, hbase⟩, e, he, hlonger⟩ hplain
  · -- It is no module, and was none.
    cases (Program.target?_eq_some_of_isFile hbase hleads.read_eq.1).symm.trans htarget
    rintro ⟨m', text, hread, -⟩
    have hfile' := Disk.isFile_of_read hread
    rw [h.isFile_of_leadsToAdded hleads] at hfile'
    cases hfile'

end ElementCatalog
