import ElementCatalog.Project.BuildConfig
import ElementCatalog.Proofs.RegistrationOutcomes
import ElementCatalog.Text.Splitting

/-!
# Runtime outcomes — what is known about the bundling of a project

Toward: either the build configuration of a project is there, can be read and is a module, and then
its name tells the bundler and the first node with named federation options tells the federation; or
nothing is known, and one diagnostic says why.  The route:

* the configuration lies at the path that was named, or at the first candidate in the root, or at the
  least name in the source directory (`Located`, `find?_eq_some_iff`);
* a node gives federation options if it constructs a plugin or calls a federation with an object
  literal first, and they count if they have a literal name (`Describes`, `ofNode?_eq_some_iff`);
* the places of a module are in the order of visits, so what is found first among its nodes is given
  at the first place that gives anything (`isFirst_ofModule?`);
* each way out of loading is one kind of refusal (`load_cases`).
-/

namespace ElementCatalog.BuildConfig

open Source (Expr Property Node Place)

/-! ## Where a configuration is -/

/-- The name of a configuration: something in front of `.config.` and an extension. -/
def IsConfigName (name : String) : Prop :=
  ∃ stem extension, stem ≠ "" ∧ extension ∈ ["js", "ts", "mjs", "cjs"] ∧
    name = stem ++ ".config." ++ extension

/-- A configuration is told by its name. -/
theorem isConfigName_iff {name : String} : isConfigName name = true ↔ IsConfigName name := by
  rw [isConfigName, List.any_eq_true]
  constructor
  · rintro ⟨extension, hmem, h⟩
    rw [Bool.and_eq_true, decide_eq_true_iff] at h
    obtain ⟨hends, hlonger⟩ := h
    obtain ⟨stem, rfl⟩ := ElementCatalog.Text.endsWith_iff.mp hends
    refine ⟨stem, extension, ?_, hmem, (String.append_assoc).symm⟩
    rintro rfl
    rw [String.empty_append] at hlonger
    exact Nat.lt_irrefl _ hlonger
  · rintro ⟨stem, extension, hstem, hmem, rfl⟩
    refine ⟨extension, hmem, ?_⟩
    rw [Bool.and_eq_true, decide_eq_true_iff, String.append_assoc]
    refine ⟨ElementCatalog.Text.endsWith_iff.mpr ⟨stem, rfl⟩, ?_⟩
    have hlength : 0 < stem.length :=
      Nat.pos_of_ne_zero fun hzero => hstem (String.length_eq_zero_iff.mp hzero)
    rw [String.length_append]
    omega

/-- A file of the source directory has the name of a configuration. -/
def IsEntry (d : Disk) (root name : String) : Prop :=
  IsConfigName name ∧ ∃ text, (name, .file text) ∈ d.contents (Path.joinText root "src")

/-- Where the build configuration of a project lies: where it was named, if there is a file, or at
    the first candidate that is a file, or else at the least name in the source directory. -/
inductive Located (d : Disk) (root : String) : (explicit : Option String) → (path : String) → Prop
  | named {relative : String} (h : d.isFile (Path.joinText root relative) = true) :
    Located d root (some relative) (Path.joinText root relative)
  | candidate {before after : List String} {name : String}
    (hnames : candidateNames = before ++ name :: after)
    (h : d.isFile (Path.joinText root name) = true)
    (hbefore : ∀ n ∈ before, d.isFile (Path.joinText root n) = false) :
    Located d root none (Path.joinText root name)
  | inSources {name : String}
    (hnone : ∀ n ∈ candidateNames, d.isFile (Path.joinText root n) = false)
    (h : IsEntry d root name) (hleast : ∀ other, IsEntry d root other → ¬other < name) :
    Located d root none (Path.joinText (Path.joinText root "src") name)

variable {d : Disk} {root : String}

/-- The names of configurations in the source directory. -/
def entryNames (d : Disk) (root : String) : List String :=
  (d.contents (Path.joinText root "src")).filterMap fun (name, tree) =>
    if tree.isFile && isConfigName name then some name else none

/-- The names of configurations are those of the entries. -/
theorem mem_entryNames {name : String} : name ∈ entryNames d root ↔ IsEntry d root name := by
  rw [entryNames, List.mem_filterMap]
  constructor
  · rintro ⟨⟨n, tree⟩, hmem, h⟩
    rw [Option.ite_none_right_eq_some, Bool.and_eq_true] at h
    obtain ⟨⟨hfile, hname⟩, hn⟩ := h
    cases hn
    refine ⟨isConfigName_iff.mp hname, ?_⟩
    cases tree with
    | file text => exact ⟨text, hmem⟩
    | directory entries => cases hfile
  · rintro ⟨hname, text, hmem⟩
    refine ⟨_, hmem, ?_⟩
    show (if isConfigName name then some name else none) = some name
    rw [if_pos (isConfigName_iff.mpr hname)]

/-- The first of sorted names is the least one. -/
theorem head?_mergeSort_eq_some_iff {names : List String} {name : String} :
    (names.mergeSort fun a b => !(b < a)).head? = some name ↔
      name ∈ names ∧ ∀ other ∈ names, ¬other < name := by
  have hle : ∀ a b : String, (!decide (b < a)) = true ↔ a ≤ b := by
    intro a b
    rw [Bool.not_eq_true', decide_eq_false_iff_not, String.not_lt]
  have hsorted : (names.mergeSort fun a b => !(b < a)).Pairwise fun a b => a ≤ b := by
    refine (List.pairwise_mergeSort ?_ ?_ names).imp fun {a b} h => (hle a b).mp h
    · intro a b c hab hbc
      exact (hle a c).mpr (String.le_trans ((hle a b).mp hab) ((hle b c).mp hbc))
    · intro a b
      rw [Bool.or_eq_true, hle, hle]
      exact String.le_total a b
  have hmem : ∀ n, n ∈ names.mergeSort (fun a b => !(b < a)) ↔ n ∈ names :=
    fun n => List.mem_mergeSort
  -- Of a sorted list, nothing is less than its first entry.
  cases hlist : names.mergeSort fun a b => !(b < a) with
  | nil =>
      rw [hlist] at hmem
      refine iff_of_false nofun ?_
      rintro ⟨hname, -⟩
      exact absurd ((hmem name).mpr hname) List.not_mem_nil
  | cons first rest =>
      rw [hlist] at hmem hsorted
      obtain ⟨hfirst, -⟩ := List.pairwise_cons.mp hsorted
      have hleast : ∀ other ∈ names, first ≤ other := by
        intro other hother
        rcases List.mem_cons.mp ((hmem other).mpr hother) with rfl | hother
        · exact String.le_refl _
        · exact hfirst other hother
      rw [List.head?_cons, Option.some.injEq]
      constructor
      · rintro rfl
        exact ⟨(hmem first).mp List.mem_cons_self, fun other hother =>
          String.not_lt.mpr (hleast other hother)⟩
      · rintro ⟨hname, hothers⟩
        have hback := String.not_lt.mp (hothers first ((hmem first).mp List.mem_cons_self))
        exact String.le_antisymm (hleast name hname) hback

/-- A list has one first name that is a file. -/
theorem first_unique {before after before' after' : List String} {name name' : String}
    (hsame : before ++ name :: after = before' ++ name' :: after')
    (hfile : d.isFile (Path.joinText root name) = true)
    (hmissing : ∀ n ∈ before, d.isFile (Path.joinText root n) = false)
    (hfile' : d.isFile (Path.joinText root name') = true)
    (hmissing' : ∀ n ∈ before', d.isFile (Path.joinText root n) = false) : name = name' := by
  rcases List.append_eq_append_iff.mp hsame with ⟨more, rfl, hmore⟩ | ⟨more, rfl, hmore⟩
  · cases more with
    | nil => cases hmore; rfl
    | cons n more =>
        cases hmore
        rw [hmissing' name (by simp)] at hfile
        cases hfile
  · cases more with
    | nil => cases hmore; rfl
    | cons n more =>
        cases hmore
        rw [hmissing name' (by simp)] at hfile'
        cases hfile'

/-- The search through the names finds a configuration exactly where it is. -/
theorem find?_eq_some_iff {path : String} :
    find? d root = some path ↔ Located d root none path := by
  have hsources : find? d root = ((candidateNames.map (Path.joinText root)).find? d.isFile).or
      (((entryNames d root).mergeSort fun a b => !(b < a)).head?.map
        (Path.joinText (Path.joinText root "src"))) := by
    rw [find?]
    cases (candidateNames.map (Path.joinText root)).find? d.isFile <;> rfl
  rw [hsources]
  cases hfound : (candidateNames.map (Path.joinText root)).find? d.isFile with
  | some found =>
      obtain ⟨hfile, before, after, hsplit, hbefore⟩ := List.find?_eq_some_iff_append.mp hfound
      obtain ⟨before, rest, hnames, rfl, hrest⟩ := List.map_eq_append_iff.mp hsplit
      obtain ⟨name, after, rfl, rfl, -⟩ := List.map_eq_cons_iff.mp hrest
      have hmissing : ∀ n ∈ before, d.isFile (Path.joinText root n) = false := by
        intro n hn
        simpa using hbefore _ (List.mem_map_of_mem hn)
      constructor
      · intro h
        cases h
        exact .candidate hnames hfile hmissing
      · intro h
        cases h with
        | @candidate before' after' name' hnames' hfile' hmissing' =>
            rw [first_unique (hnames.symm.trans hnames') hfile hmissing hfile' hmissing',
              Option.some_or]
        | inSources hnone =>
            have hmem : name ∈ candidateNames := by
              rw [hnames]
              exact List.mem_append_right _ List.mem_cons_self
            rw [hnone name hmem] at hfile
            cases hfile
  | none =>
      have hnone : ∀ n ∈ candidateNames, d.isFile (Path.joinText root n) = false := by
        intro n hn
        simpa using List.find?_eq_none.mp hfound _ (List.mem_map_of_mem hn)
      rw [Option.none_or, Option.map_eq_some_iff]
      constructor
      · rintro ⟨name, hname, rfl⟩
        obtain ⟨hmem, hleast⟩ := head?_mergeSort_eq_some_iff.mp hname
        exact .inSources hnone (mem_entryNames.mp hmem) fun other hother =>
          hleast other (mem_entryNames.mpr hother)
      · intro h
        cases h with
        | candidate hnames hfile =>
            rw [hnone _ (hnames ▸ List.mem_append_right _ List.mem_cons_self)] at hfile
            cases hfile
        | @inSources name hnone hentry hleast =>
            refine ⟨name, head?_mergeSort_eq_some_iff.mpr ⟨mem_entryNames.mpr hentry, ?_⟩, rfl⟩
            intro other hother
            exact hleast other (mem_entryNames.mp hother)

/-! ## Federations -/

/-- The first argument of a call is an object literal: behind the dots of a list, type notes and
    parentheses. -/
def IsFirstObject (args : List Expr) (options : List Property) : Prop :=
  ∃ first more, args = first :: more ∧ first.argument.unwrapped = .object options

/-- A node gives options to a federation: it constructs a plugin whose name ends in the one of module
    federations, or it calls a federation, and an object literal is the first argument. -/
inductive GivesOptions : Node → (options : List Property) → Prop
  | plugin {callee : Expr} {typeArgs : List Source.TypeUse} {args : List Expr}
    {options : List Property} {space : String}
    (hname : callee.name? = some (space ++ "ModuleFederationPlugin"))
    (hobject : IsFirstObject args options) : GivesOptions (.expr (.new callee typeArgs args)) options
  | call {start : Source.Position} {callee : Expr} {typeArgs : List Source.TypeUse}
    {args : List Expr} {options : List Property} (hname : callee.name? = some "federation")
    (hobject : IsFirstObject args options) :
    GivesOptions (.expr (.call start callee typeArgs args)) options

/-- Options have a name: the value of their first entry under `name` is a literal. -/
def HasName (options : List Property) (name : String) : Prop :=
  ∃ value, Property.value? options "name" = some value ∧ value.TextLiteral name

/-- A node describes a federation: it gives options that have a name, and the federation is read from
    them under this name. -/
def Describes (n : Node) (f : Federation) : Prop :=
  ∃ options, GivesOptions n options ∧ HasName options f.remoteName ∧ federation? options = some f

/-- The name of options is the text of their first entry under `name`. -/
theorem hasName_iff {options : List Property} {name : String} :
    HasName options name ↔ Property.string? options "name" = some name := by
  rw [Property.string?, Option.bind_eq_some_iff]
  simp only [Source.Expr.string?_eq_some_iff]
  rfl

/-- Options describe a federation exactly if they have a name, and then this is its name. -/
theorem federation?_eq_some {options : List Property} {f : Federation}
    (h : federation? options = some f) : HasName options f.remoteName := by
  obtain ⟨name, hname, rfl⟩ := Option.map_eq_some_iff.mp h
  exact hasName_iff.mpr hname

/-- Options that have a name describe a federation. -/
theorem HasName.exists_federation {options : List Property} {name : String}
    (h : HasName options name) : ∃ f, federation? options = some f ∧ f.remoteName = name := by
  rw [federation?, hasName_iff.mp h]
  exact ⟨_, rfl, rfl⟩

/-- The entries of an expression are those of the object literal that it is. -/
theorem entries?_eq_some_iff {e : Expr} {options : List Property} :
    e.entries? = some options ↔ e.unwrapped = .object options := by
  rw [Expr.entries?]
  cases e.unwrapped <;> simp

/-- Arguments describe what the options say that are first among them. -/
theorem describedBy?_eq_some_iff {args : List Expr} {f : Federation} :
    describedBy? args = some f ↔
      ∃ options, IsFirstObject args options ∧ federation? options = some f := by
  rw [describedBy?, Option.bind_eq_some_iff]
  constructor
  · rintro ⟨options, hoptions, hf⟩
    obtain ⟨first, hfirst, hentries⟩ := Option.bind_eq_some_iff.mp hoptions
    obtain ⟨more, rfl⟩ := List.head?_eq_some_iff.mp hfirst
    exact ⟨options, ⟨first, more, rfl, entries?_eq_some_iff.mp hentries⟩, hf⟩
  · rintro ⟨options, ⟨first, more, rfl, hobject⟩, hf⟩
    exact ⟨options, entries?_eq_some_iff.mpr hobject, hf⟩

/-- A node is read to the federation that it describes. -/
theorem ofNode?_eq_some_iff {n : Node} {f : Federation} :
    ofNode? n = some f ↔ Describes n f := by
  constructor
  · intro h
    rw [ofNode?.eq_def] at h
    split at h
    · next callee typeArgs args =>
        rw [Option.ite_none_right_eq_some, Option.any_eq_true] at h
        obtain ⟨⟨name, hname, hends⟩, hdescribed⟩ := h
        obtain ⟨space, rfl⟩ := ElementCatalog.Text.endsWith_iff.mp hends
        obtain ⟨options, hobject, hf⟩ := describedBy?_eq_some_iff.mp hdescribed
        exact ⟨options, .plugin hname hobject, federation?_eq_some hf, hf⟩
    · next start callee typeArgs args =>
        rw [Option.ite_none_right_eq_some] at h
        obtain ⟨hname, hdescribed⟩ := h
        obtain ⟨options, hobject, hf⟩ := describedBy?_eq_some_iff.mp hdescribed
        exact ⟨options, .call hname hobject, federation?_eq_some hf, hf⟩
    · cases h
  · rintro ⟨options, hgives, -, hf⟩
    cases hgives with
    | @plugin callee typeArgs args options space hname hobject =>
        rw [ofNode?, hname, Option.any_some, if_pos (ElementCatalog.Text.endsWith_iff.mpr ⟨space, rfl⟩)]
        exact describedBy?_eq_some_iff.mpr ⟨options, hobject, hf⟩
    | call hname hobject =>
        rw [ofNode?, if_pos hname]
        exact describedBy?_eq_some_iff.mpr ⟨options, hobject, hf⟩

/-- A node is passed over exactly if it gives no options or none with a name. -/
theorem exists_describes_iff {n : Node} :
    (∃ f, Describes n f) ↔ ∃ options name, GivesOptions n options ∧ HasName options name := by
  constructor
  · rintro ⟨f, options, hgives, hname, -⟩
    exact ⟨options, f.remoteName, hgives, hname⟩
  · rintro ⟨options, name, hgives, hname⟩
    obtain ⟨f, hf, rfl⟩ := hname.exists_federation
    exact ⟨f, options, hgives, hname, hf⟩

/-- The federation of a module is described at its first place that describes any. -/
def IsFirstFederation (m : Source.Module) : Option Federation → Prop :=
  Place.IsFirst fun place f => ∃ n, m.nodeAt? place = some n ∧ Describes n f

/-- The federation of a module is found in the order of places. -/
theorem isFirst_ofModule? (m : Source.Module) : IsFirstFederation m (ofModule? m) := by
  -- The nodes of the module are the nodes at its places.
  have hplaces : ofModule? m = m.places.findSome? fun place => (m.nodeAt? place).bind ofNode? := by
    calc ofModule? m
        = (m.nodes.map some).findSome? (·.bind ofNode?) := by
          rw [ofModule?, List.findSome?_map]
          rfl
      _ = _ := by
          rw [← m.map_nodeAt?_places, List.findSome?_map]
          rfl
  have hgiven : ∀ place f, (place ∈ m.places ∧ (m.nodeAt? place).bind ofNode? = some f) ↔
      ∃ n, m.nodeAt? place = some n ∧ Describes n f := by
    intro place f
    simp only [Option.bind_eq_some_iff, ofNode?_eq_some_iff, and_iff_right_iff_imp]
    rintro ⟨n, hn, -⟩
    exact Node.mem_placesIn_iff.mpr (Option.isSome_iff_exists.mpr ⟨n, hn⟩)
  rw [hplaces]
  exact (Place.isFirst_findSome? (Node.pairwise_placesIn _) _).congr hgiven

/-! ## Outcomes -/

/-- The file at a path is read and parsed to a module. -/
def Holds (d : Disk) (path : String) (m : Source.Module) : Prop :=
  ∃ text, d.read path = .ok text ∧ Source.Module.parse? path text = some m

/-- Why nothing is known about the bundling of a project, and what is said about it. -/
inductive Refusal (d : Disk) (root : String) : (explicit : Option String) → Diagnostic → Prop
  | namedMissing {relative : String} (h : d.isFile (Path.joinText root relative) = false) :
    Refusal d root (some relative) (.plain .warning .missingBuildConfig
      ("build config '" ++ Path.joinText root relative ++ "' does not exist"))
  | notFound (h : ∀ path, ¬Located d root none path) :
    Refusal d root none (.plain .info .missingBuildConfig
      "no build config found; runtime bundler is unknown")
  | unreadable {explicit : Option String} {path : String} {fault : ReadFault}
    (hlocated : Located d root explicit path) (h : d.read path = .error fault) :
    Refusal d root explicit (.warningIn .unparsableConfig
      ("Failed to read build config " ++ path ++ ": " ++ fault.message)
      (Path.shownUnder (Path.ofText root) path))
  | unparsable {explicit : Option String} {path text : String}
    (hlocated : Located d root explicit path) (hread : d.read path = .ok text)
    (h : Source.Module.parse? path text = none) :
    Refusal d root explicit (.warningIn .unparsableConfig ("Failed to parse " ++ path)
      (Path.shownUnder (Path.ofText root) path))

variable {explicit : Option String}

/-- A configuration lies in one place. -/
theorem Located.unique {path other : String} (h : Located d root explicit path)
    (hother : Located d root explicit other) : other = path := by
  cases explicit with
  | some relative =>
      cases h
      cases hother
      rfl
  | none =>
      exact Option.some.inj ((find?_eq_some_iff.mpr hother).symm.trans (find?_eq_some_iff.mpr h))

/-- Reading what lies at a path gives its runtime, or refuses it. -/
theorem readFile_cases {path : String} (hlocated : Located d root explicit path) :
    (∃ m, Holds d path m ∧
        readFile d root path = .ok ⟨bundlerName (Path.ofText path), ofModule? m⟩) ∨
      (¬∃ m, Holds d path m) ∧
        ∃ diagnostic, readFile d root path = .error diagnostic ∧
          Refusal d root explicit diagnostic := by
  rw [readFile]
  cases hread : d.read path with
  | error fault =>
      refine Or.inr ⟨?_, _, rfl, .unreadable hlocated hread⟩
      rintro ⟨m, text, htext, -⟩
      rw [hread] at htext
      cases htext
  | ok text =>
      dsimp only
      cases hparse : Source.Module.parse? path text with
      | none =>
          refine Or.inr ⟨?_, _, rfl, .unparsable hlocated hread hparse⟩
          rintro ⟨m, other, hother, hm⟩
          rw [hread] at hother
          cases hother
          rw [hparse] at hm
          cases hm
      | some m => exact Or.inl ⟨m, ⟨text, hread, hparse⟩, rfl⟩

/-- Loading is reading what lies where the configuration is; if it is nowhere, this is refused. -/
theorem load_cases (d : Disk) (root : String) (explicit : Option String) :
    (∃ path, Located d root explicit path ∧ load d root explicit = readFile d root path) ∨
      (¬∃ path, Located d root explicit path) ∧
        ∃ diagnostic, load d root explicit = .error diagnostic ∧
          Refusal d root explicit diagnostic := by
  cases explicit with
  | some relative =>
      rw [load]
      cases hfile : d.isFile (Path.joinText root relative) with
      | true => exact Or.inl ⟨_, .named hfile, if_pos rfl⟩
      | false =>
          refine Or.inr ⟨?_, _, if_neg Bool.false_ne_true, .namedMissing hfile⟩
          rintro ⟨path, hpath⟩
          cases hpath with
          | named h =>
              rw [hfile] at h
              cases h
  | none =>
      rw [load]
      cases hfound : find? d root with
      | some path => exact Or.inl ⟨path, find?_eq_some_iff.mp hfound, rfl⟩
      | none =>
          have hnowhere : ∀ path, ¬Located d root none path := by
            intro path hpath
            rw [find?_eq_some_iff.mpr hpath] at hfound
            cases hfound
          exact Or.inr ⟨not_exists.mpr hnowhere, _, rfl, .notFound hnowhere⟩

/-- Where a module is located, it tells the runtime. -/
theorem runtime_of_holds {path : String} {m : Source.Module}
    (hlocated : Located d root explicit path) (hm : Holds d path m) :
    (runtime d root explicit).1 = ⟨bundlerName (Path.ofText path), ofModule? m⟩ := by
  obtain ⟨text, hread, hparse⟩ := hm
  have hfile : readFile d root path = .ok ⟨bundlerName (Path.ofText path), ofModule? m⟩ := by
    rw [readFile, hread]
    dsimp only
    rw [hparse]
  rcases load_cases d root explicit with ⟨other, hother, hload⟩ | ⟨hnowhere, -⟩
  · rw [runtime, hload, hlocated.unique hother, hfile]
  · exact absurd ⟨path, hlocated⟩ hnowhere

/-- Where no module is located, the runtime is unknown. -/
theorem runtime_of_not_holds (h : ¬∃ path m, Located d root explicit path ∧ Holds d path m) :
    (runtime d root explicit).1 = .unknown := by
  have hrefused {diagnostic : Diagnostic} (herror : load d root explicit = .error diagnostic) :
      (runtime d root explicit).1 = .unknown := by
    rw [runtime, herror]
  rcases load_cases d root explicit with ⟨path, hlocated, hload⟩ | ⟨-, diagnostic, herror, -⟩
  · rcases readFile_cases hlocated with ⟨m, hm, -⟩ | ⟨-, diagnostic, herror, -⟩
    · exact absurd ⟨path, m, hlocated, hm⟩ h
    · exact hrefused (hload.trans herror)
  · exact hrefused herror

/-- **Runtime outcomes**: no diagnostic is left exactly if the build configuration of a project is
    there, can be read and is a module.  Then the bundler is told by the name of its file, and the
    federation is described at the first place that describes any, if there is one.  Otherwise one
    diagnostic says what is missing, and nothing is known. -/
theorem runtime_known_or_refused (d : Disk) (root : String) (explicit : Option String) :
    let outcome := runtime d root explicit
    (outcome.2 = [] ↔ ∃ path m, Located d root explicit path ∧ Holds d path m) ∧
      (∀ path m, Located d root explicit path → Holds d path m →
        outcome.1.bundler = bundlerName (Path.ofText path) ∧
          IsFirstFederation m outcome.1.federation) ∧
      (outcome.2 ≠ [] → ∃ diagnostic, outcome = (.unknown, [diagnostic]) ∧
        Refusal d root explicit diagnostic) := by
  intro outcome
  have houtcome : outcome = runtime d root explicit := rfl
  rw [runtime] at houtcome
  have hrefused {diagnostic : Diagnostic} (herror : load d root explicit = .error diagnostic)
      (hrefusal : Refusal d root explicit diagnostic)
      (hnone : ¬∃ path m, Located d root explicit path ∧ Holds d path m) :
      (outcome.2 = [] ↔ ∃ path m, Located d root explicit path ∧ Holds d path m) ∧
        (∀ path m, Located d root explicit path → Holds d path m →
          outcome.1.bundler = bundlerName (Path.ofText path) ∧
            IsFirstFederation m outcome.1.federation) ∧
        (outcome.2 ≠ [] → ∃ diagnostic, outcome = (.unknown, [diagnostic]) ∧
          Refusal d root explicit diagnostic) := by
    rw [herror] at houtcome
    rw [houtcome]
    refine ⟨iff_of_false (List.cons_ne_nil _ _) hnone, ?_, fun _ => ⟨diagnostic, rfl, hrefusal⟩⟩
    intro path m hlocated hholds
    exact absurd ⟨path, m, hlocated, hholds⟩ hnone
  rcases load_cases d root explicit with
    ⟨path, hlocated, hload⟩ | ⟨hnowhere, diagnostic, herror, hrefusal⟩
  · rcases readFile_cases hlocated with ⟨m, hholds, hread⟩ | ⟨hnot, diagnostic, herror, hrefusal⟩
    · rw [hload, hread] at houtcome
      rw [houtcome]
      refine ⟨iff_of_true rfl ⟨path, m, hlocated, hholds⟩, ?_, fun hne => absurd rfl hne⟩
      rintro other m' hother ⟨text', hread', hparse'⟩
      -- The file and its module are the ones that were read.
      obtain ⟨text, hread, hparse⟩ := hholds
      rw [hlocated.unique hother, hread] at hread'
      cases hread'
      rw [hlocated.unique hother, hparse] at hparse'
      cases hparse'
      rw [hlocated.unique hother]
      exact ⟨rfl, isFirst_ofModule? m⟩
    · refine hrefused (hload.trans herror) hrefusal ?_
      rintro ⟨other, m, hother, hholds⟩
      rw [hlocated.unique hother] at hholds
      exact hnot ⟨m, hholds⟩
  · refine hrefused herror hrefusal ?_
    rintro ⟨path, m, hlocated, -⟩
    exact hnowhere ⟨path, hlocated⟩

end ElementCatalog.BuildConfig
