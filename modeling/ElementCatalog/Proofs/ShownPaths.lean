import ElementCatalog.Proofs.InitializedPrograms
import ElementCatalog.Proofs.LoadedAssets
import ElementCatalog.Proofs.MergedSurfaces
import ElementCatalog.Proofs.UnrelatedFiles

/-!
# Shown paths — what a file is called tells which file it is

A file is shown by its path from the root of its project, or in full where it lies outside.  Toward:
reading the shown path from the root leads back to the file, so the files of a program are told apart
by their shown paths, and with them the modules of the catalog and the files of diagnostics.  The
route:

* what is cut off in front of a shown path is what joining it to the root puts back, and a normal
  path stays as it is when it is normalized again (`resolveFrom_shownUnder`);
* the files of every program have normal paths, absolute ones if it is made of absolute paths
  (`IsBuilt.paths`);
* an implementation stands in a file of the program, and a diagnostic tells of a file in which
  registrations are searched for (`exists_file_of_mem_components`, `exists_file_of_mem_diagnostics`).
-/

namespace ElementCatalog

/-! ## Paths -/

namespace Path

/-- What lies below a path has the path in front. -/
theorem below?_eq_some_iff {root p : Path} {rest : List PathComponent} :
    below? root p = some rest ↔ p.components = root.components ++ rest := by
  rw [below?, Option.ite_none_right_eq_some, List.isPrefixOf_iff_prefix, Option.some.injEq]
  constructor
  · rintro ⟨⟨others, hothers⟩, rfl⟩
    rw [← hothers, List.drop_left]
  · intro h
    rw [h, List.drop_left]
    exact ⟨List.prefix_append _ _, rfl⟩

/-- A normal absolute path is the root with steps behind it. -/
theorem IsNormal.exists_steps {p : Path} (h : p.IsNormal) (habsolute : p.IsAbsolute) :
    ∃ pieces : List String, (∀ q ∈ pieces, takesStep q = true ∧ '/' ∉ q.toList) ∧
      p = ⟨[.root] ++ pieces.map component⟩ := by
  obtain ⟨head, hhead, pieces, hpieces, rfl⟩ := h.isSpelled
  obtain ⟨rest, hrest⟩ := habsolute
  rcases eq_of_mem_heads hhead with rfl | rfl | rfl
  · cases pieces with
    | nil => cases hrest
    | cons q others => exact absurd (List.cons.inj hrest).1 (component_ne_root q)
  · cases hrest
  · exact ⟨pieces, hpieces, rfl⟩

/-- Steps are cut apart again at the slashes between them. -/
theorem stepPieces_intercalate {pieces : List String}
    (h : ∀ q ∈ pieces, takesStep q = true ∧ '/' ∉ q.toList) :
    stepPieces ("/".intercalate pieces) = pieces := by
  have htext : stepPieces (⟨[] ++ pieces.map component⟩ : Path).text = pieces :=
    stepPieces_text (by decide) h
  rwa [text_of_head (by decide) (by simp)] at htext

/-- Steps with slashes between them are a relative path. -/
theorem startsWith_intercalate_steps {pieces : List String}
    (h : ∀ q ∈ pieces, takesStep q = true ∧ '/' ∉ q.toList) :
    ("/".intercalate pieces).startsWith "/" = false := by
  cases pieces with
  | nil => decide
  | cons q rest =>
      obtain ⟨hq, hslash⟩ := h q List.mem_cons_self
      rw [startsWith_intercalate hslash, beq_false_of_ne (takesStep_iff.mp hq).1, Bool.false_and]

/-- What is read from an absolute path is absolute. -/
theorem IsAbsolute.resolveFrom {root : Path} (h : root.IsAbsolute) (relative : String) :
    (Path.resolveFrom root relative).IsAbsolute :=
  (isAbsolute_ofText (startsWith_joinText h.startsWith_text relative)).normalize

section Shown

variable {root p q : Path} (hroot : root.IsNormal) (habsolute : root.IsAbsolute)
include hroot habsolute

/-- Steps below the root are joined to it again. -/
theorem ofText_joinText_steps {pieces : List String}
    (h : ∀ q ∈ pieces, takesStep q = true ∧ '/' ∉ q.toList) :
    ofText (joinText root.text ("/".intercalate pieces)) =
      ⟨root.components ++ pieces.map component⟩ := by
  obtain ⟨front, hfront, hsteps⟩ := hroot.exists_steps habsolute
  have hhead : headOf (joinText root.text ("/".intercalate pieces)) = [.root] :=
    headOf_eq_root_iff.mpr (startsWith_joinText habsolute.startsWith_text _)
  have hpieces : stepPieces root.text = front := by
    rw [hsteps]
    exact stepPieces_text (by decide) hfront
  rw [ofText_eq, hhead, stepPieces_joinText (startsWith_intercalate_steps h), hpieces,
    stepPieces_intercalate h, hsteps, List.map_append, List.append_assoc]

/-- **Shown paths are read back**: what an absolute path is shown as leads from the root to the path
    itself, whether it lies below the root or outside. -/
theorem resolveFrom_shownUnder (hp : p.IsNormal) (hpabsolute : p.IsAbsolute) :
    resolveFrom root (shownUnder root p.text) = p := by
  have hread : ofText (joinText root.text (shownUnder root p.text)) = p := by
    rw [shownUnder, hp.ofText_text]
    cases hbelow : below? root p with
    | none =>
        dsimp only
        rw [joinText, if_pos hpabsolute.startsWith_text, hp.ofText_text]
    | some rest =>
        obtain ⟨pieces, hpieces, hsteps⟩ := hp.exists_steps hpabsolute
        obtain ⟨front, -, hfront⟩ := hroot.exists_steps habsolute
        have hcomponents := below?_eq_some_iff.mp hbelow
        -- What is behind the root are steps of the path.
        have hmap : pieces.map component = front.map component ++ rest := by
          rw [hsteps, hfront] at hcomponents
          exact (List.cons.inj hcomponents).2
        obtain ⟨before, after, rfl, -, rfl⟩ := List.map_eq_append_iff.mp hmap
        have hafter := fun q hq => hpieces q (List.mem_append_right before hq)
        dsimp only
        rw [map_text_component, ofText_joinText_steps hroot habsolute hafter, ← hcomponents]
  rw [resolveFrom, hread, hp.normalize_eq]

/-- Paths that are shown alike are one path. -/
theorem shownUnder_eq_iff (hp : p.IsNormal) (hpabsolute : p.IsAbsolute) (hq : q.IsNormal)
    (hqabsolute : q.IsAbsolute) : shownUnder root p.text = shownUnder root q.text ↔ p = q := by
  refine ⟨fun heq => ?_, fun heq => heq ▸ rfl⟩
  rw [← resolveFrom_shownUnder hroot habsolute hp hpabsolute, heq,
    resolveFrom_shownUnder hroot habsolute hq hqabsolute]

end Shown

end Path

/-! ## Programs -/

namespace Program

/-- The ways to a program with a root: from sources that are given by their paths from the root, and
    from a disk and scanned absolute paths.  A path that is not absolute lies neither below the root
    nor outside. -/
inductive IsBuilt (root : Path) : Program → Prop where
  | sources {sources : List (String × String)} {program : Program}
    (h : ofSources root sources = .ok program) : IsBuilt root program
  | loaded (parse : ModuleParser) (d : Disk) {scanned : List String}
    (h : ∀ text ∈ scanned, text.startsWith "/" = true) :
    IsBuilt root (loadWith parse d root (scanned.map Path.ofText)).1

variable {root : Path} {program : Program}

/-- From paths that are read from texts only normal paths are reached. -/
theorem isNormal_of_reached {parse : ModuleParser} {d : Disk} {scanned : List String} {p : Path}
    (h : Reached parse d ((scanned.map Path.ofText).map Path.normalize) p) : p.IsNormal := by
  induction h with
  | scanned hmem =>
      obtain ⟨q, hq, rfl⟩ := List.mem_map.mp hmem
      obtain ⟨text, -, rfl⟩ := List.mem_map.mp hq
      exact Path.normalize_isNormal (Path.namesOnly_ofText text)
  | followed _ h _ =>
      obtain ⟨m, -, specifier, -, htarget⟩ := h
      exact Path.isNormal_of_mem_fallbackCandidates (List.mem_of_find?_eq_some htarget)

/-- The files of a program have normal absolute paths, and are shown by them. -/
theorem IsBuilt.paths (h : IsBuilt root program) (hnormal : root.IsNormal)
    (habsolute : root.IsAbsolute) : program.root = root ∧ ∀ file ∈ program.files,
      file.path.IsNormal ∧ file.path.IsAbsolute ∧
        file.shownPath = Path.shownUnder root file.path.text := by
  cases h with
  | sources h =>
      obtain ⟨parsed, hparsed, rfl⟩ := ofSources_eq_ok.mp h
      refine ⟨rfl, fun file hfile => ?_⟩
      obtain ⟨p, hp, place, rfl⟩ := mem_files_ofParsed hfile
      have hpath := List.mem_map_of_mem (f := (·.path)) hp
      rw [paths_of_parsed hparsed] at hpath
      obtain ⟨source, -, hsource⟩ := List.mem_map.mp hpath
      refine ⟨?_, ?_, rfl⟩
      · show p.path.IsNormal
        rw [← hsource]
        exact Path.resolveFrom_isNormal root source.1
      · show p.path.IsAbsolute
        rw [← hsource]
        exact habsolute.resolveFrom source.1
  | @loaded parse d scanned h =>
      have hclosure := isClosureOf_loadWith parse d root (scanned.map Path.ofText)
      refine ⟨hnormal.normalize_eq, fun file hfile => ?_⟩
      obtain ⟨hreached, -⟩ := (hclosure.files file.path file.module).mp ⟨file, hfile, rfl, rfl⟩
      obtain ⟨p, -, place, rfl⟩ := mem_files_ofParsed hfile
      refine ⟨isNormal_of_reached hreached, isAbsolute_of_reached (fun p hp => ?_) hreached, ?_⟩
      · obtain ⟨q, hq, rfl⟩ := List.mem_map.mp hp
        obtain ⟨text, htext, rfl⟩ := List.mem_map.mp hq
        exact (Path.isAbsolute_ofText (h text htext)).normalize
      · show Path.shownUnder root.normalize p.path.text = _
        rw [hnormal.normalize_eq]
        rfl

/-- What the files of a program have is what the parsed files have, in another order. -/
theorem map_files_perm {β : Type} {root : Path} {parsed : List ParsedFile}
    (view : ParsedFile → β) (view' : SourceFile → β)
    (hview : ∀ p place, view' (placed root p place) = view p) :
    ((ofParsed root parsed).files.map view').Perm (parsed.map view) := by
  rw [map_files_ofParsed root parsed view view' hview]
  exact (List.mergeSort_perm _ _).map view

/-- A file is found under its path if no other file has this path. -/
theorem file?_path (hdistinct : (program.files.map (·.path)).Nodup) {file : SourceFile}
    (hfile : file ∈ program.files) : program.file? file.path = some file := by
  obtain ⟨found, hfound⟩ := exists_file? hfile
  rw [hfound, List.inj_on_of_nodup_map hdistinct (mem_of_file? hfound) hfile (path_of_file? hfound)]

/-- A file of a program is found under its shown path. -/
theorem IsBuilt.fileAt?_shownPath (h : IsBuilt root program) (hnormal : root.IsNormal)
    (habsolute : root.IsAbsolute) (hdistinct : (program.files.map (·.path)).Nodup)
    {file : SourceFile} (hfile : file ∈ program.files) :
    program.fileAt? file.shownPath = some file := by
  obtain ⟨hroot, hpaths⟩ := h.paths hnormal habsolute
  obtain ⟨hpath, hpathAbsolute, hshown⟩ := hpaths file hfile
  rw [fileAt?, hroot, hshown, Path.resolveFrom_shownUnder hnormal habsolute hpath hpathAbsolute,
    file?_path hdistinct hfile]

end Program

/-! ## Catalogs -/

namespace Surface

variable {w : Workspace} {s read : Surface}

/-- Reading a class stays in its file. -/
theorem file_readClass (value : Source.ClassDef) : (s.readClass w value).file = s.file := by
  rw [Surface.readClass]
  exact List.foldlRecOn (motive := fun read : Surface => read.file = s.file) _ _ rfl
    fun read hread members _ => hread

/-- Reading a function stays in its file. -/
theorem file_readFunction (param : Option Source.Pattern) (body : Option Body) :
    (s.readFunction w param body).file = s.file := by
  rw [Surface.readFunction]
  cases param.bind propsParam? with
  | none => rfl
  | some found =>
      obtain ⟨pattern, type⟩ := found
      cases type with
      | none =>
          dsimp only
          split <;> rfl
      | some type =>
          dsimp only
          split <;> rfl

/-- Reading a class or a function that stands for itself stays in its file. -/
theorem file_of_readPlain? {init : Source.Expr}
    (h : readValue?.readPlain? w s init = some read) : read.file = s.file := by
  rw [readValue?.readPlain?.eq_def] at h
  split at h
  · cases h
    exact file_readClass _
  · cases h
    exact file_readFunction _ _
  · cases h
    exact file_readFunction _ _
  · cases h
    exact file_readFunction _ _
  · cases h

/-- Reading the value of a variable, through whatever wraps it, stays in the files of the program. -/
theorem file_mem_of_readValue? (depth : Nat) : ∀ {s : Surface} {init : Source.Expr},
    s.file ∈ w.program.files → readValue? w depth s init = some read →
      read.file ∈ w.program.files := by
  induction depth with
  | zero =>
      intro s init hs h
      rw [file_of_readPlain? h]
      exact hs
  | succ depth ih =>
      intro s init hs h
      rw [readValue?] at h
      split at h
      · split at h
        · cases h
        · split at h
          · split at h
            · -- A name leads to the declaration that it wraps, which has a file of its own.
              split at h
              · next inner hinner =>
                  have hfile := (Workspace.resolve?_declares hinner).file_mem
                  split at h
                  · cases h
                    rw [file_readClass]
                    exact hfile
                  · cases h
                    rw [readDeclared, file_readFunction]
                    exact hfile
                  · exact ih hfile h
                  · cases h
              · cases h
            · exact ih hs h
          · cases h
      · rw [file_of_readPlain? h]
        exact hs

/-- The surface of a declaration stands in a file of the program if the declaration does. -/
theorem file_mem_of_ofDeclaration {d : Declaration} (hd : d.file ∈ w.program.files)
    (h : ofDeclaration w d = .ok s) : s.file ∈ w.program.files := by
  rw [ofDeclaration] at h
  cases hnode : d.node with
  | classNode value =>
      simp only [hnode] at h
      cases h
      rw [file_readClass]
      exact hd
  | functionNode value =>
      simp only [hnode] at h
      cases h
      rw [readDeclared, file_readFunction]
      exact hd
  | variableNode init type =>
      simp only [hnode] at h
      cases init with
      | none => cases h
      | some init =>
          dsimp only at h
          cases hread : readValue? w wrapperDepth (bare d.name d.file (d.file.docsAt d.anchors))
              init with
          | none =>
              rw [hread] at h
              cases h
          | some found =>
              have hfound := file_mem_of_readValue? _ hd hread
              rw [hread] at h
              dsimp only at h
              split at h <;> cases h <;> exact hfound
  | interfaceNode | aliasNode | enumNode =>
      simp only [hnode] at h
      cases h

end Surface

namespace Workspace

variable {w : Workspace}

/-- Aliases lead through the files of the program. -/
theorem file_mem_followAliases (depth : Nat) : ∀ {d : Declaration}, d.file ∈ w.program.files →
    (w.followAliases depth d).file ∈ w.program.files := by
  induction depth with
  | zero => exact fun hd => hd
  | succ depth ih =>
      intro d hd
      rw [followAliases]
      split
      · next target htarget =>
          obtain ⟨name, -, hvalue⟩ := Option.bind_eq_some_iff.mp htarget
          exact ih (resolve?_declares hvalue).file_mem
      · exact hd

/-- What is registered stands in a file of the program. -/
theorem file_mem_of_surfaceOf {file : SourceFile} (hfile : file ∈ w.program.files)
    {r : Registration} {s : Surface} (h : w.surfaceOf file r = .ok s) :
    s.file ∈ w.program.files := by
  rw [surfaceOf] at h
  split at h
  · cases h
    rw [Surface.ofClass, Surface.file_readClass]
    exact hfile
  · split at h
    · cases h
    · next declaration hdeclaration =>
        have hd := file_mem_followAliases aliasDepth (resolve?_declares hdeclaration).file_mem
        split at h
        · next s' hs =>
            cases h
            exact Surface.file_mem_of_ofDeclaration hd hs
        · cases h

/-- The module of a component is a file of the program, by its shown path. -/
theorem exists_file_of_mem_components {runtime : Runtime} {c : Component}
    (h : c ∈ (w.assemble runtime).1.components) :
    ∃ file ∈ w.program.files, c.modulePath = file.shownPath := by
  rw [components_assemble] at h
  obtain ⟨r, -, houtcome⟩ := exists_of_mem_winners h
  obtain ⟨file, hfile, hregistered⟩ := Option.bind_eq_some_iff.mp houtcome
  rw [registered] at hregistered
  cases hs : w.surfaceOf file r with
  | error diagnostic =>
      rw [hs] at hregistered
      cases hregistered
  | ok s =>
      rw [hs] at hregistered
      cases hregistered
      exact ⟨s.file, file_mem_of_surfaceOf (List.mem_of_getElem? hfile) hs, rfl⟩

/-- Diagnostics tell of files of the program, by their shown paths. -/
def TellOfFiles (w : Workspace) (diagnostics : List Diagnostic) : Prop :=
  ∀ d ∈ diagnostics, ∃ file ∈ w.program.files, d.file = some file.shownPath

/-- What a registration that fails leaves tells of its file. -/
theorem file_of_registered_error {file : SourceFile} {r : Registration} {d : Diagnostic}
    (h : w.registered file r = .error d) : d.file = some file.shownPath := by
  have hs : w.surfaceOf file r = .error d := by
    rw [registered] at h
    cases hs : w.surfaceOf file r with
    | ok s =>
        rw [hs] at h
        cases h
    | error d' =>
        rw [hs] at h
        exact congrArg _ (Except.error.inj h)
  rw [surfaceOf] at hs
  split at hs
  · cases hs
  · split at hs
    · cases hs
      rfl
    · split at hs
      · cases hs
      · cases hs
        rfl

/-- A registration that is taken into the books adds only diagnostics that tell of its file. -/
theorem tellOfFiles_add {books : Books} (h : w.TellOfFiles books.diagnostics) (r : Registration) :
    w.TellOfFiles (Books.add w books r).diagnostics := by
  rw [Books.add]
  split
  · exact h
  · next file hfile =>
      have hmem := List.mem_of_getElem? hfile
      split
      · next component _ =>
          intro d hd
          rcases List.mem_append.mp hd with hbefore | htold
          · exact h d hbefore
          · split at htold
            · rw [List.mem_singleton.mp htold]
              exact ⟨file, hmem, rfl⟩
            · cases htold
      · next diagnostic hdiagnostic =>
          intro d hd
          rcases List.mem_append.mp hd with hbefore | hnew
          · exact h d hbefore
          · rw [List.mem_singleton.mp hnew]
            exact ⟨file, hmem, file_of_registered_error hdiagnostic⟩

/-- What is reported while a catalog is assembled tells of files of the program. -/
theorem tellOfFiles_assemble (w : Workspace) (runtime : Runtime) :
    w.TellOfFiles (w.assemble runtime).2 := by
  have hdiscovered : w.TellOfFiles w.discovered.2 := by
    intro d hd
    rw [discovered, List.mem_flatMap] at hd
    obtain ⟨found, hfound, hd⟩ := hd
    obtain ⟨file, hfile, rfl⟩ := List.mem_map.mp hfound
    exact ⟨file, List.mem_of_mem_filter hfile, (Registration.of_mem_diagnostics_ofFile hd).2⟩
  show w.TellOfFiles (w.discovered.1.foldl (Books.add w) ⟨[], w.discovered.2⟩).diagnostics
  exact List.foldlRecOn (motive := fun books : Books => w.TellOfFiles books.diagnostics) _ _
    hdiscovered fun _ hbooks r _ => tellOfFiles_add hbooks r

/-- **Shown paths identify files**: in a program with a normal absolute root, made of sources or
    loaded from a disk, whose files have different paths, inside the root or outside, every file is
    found again under its shown path, and no two files are shown alike.  So the module of every
    component of the catalog and the file of every diagnostic is exactly one file of the program.
    Files that are not in the program, as they could not be read, are told apart like this as well. -/
theorem shown_paths_identify_files {root : Path} (hnormal : root.IsNormal)
    (habsolute : root.IsAbsolute) {program : Program} (hprogram : Program.IsBuilt root program)
    (hdistinct : (program.files.map (·.path)).Nodup) :
    (∀ file ∈ program.files, program.fileAt? file.shownPath = some file) ∧
      (program.files.map (·.shownPath)).Nodup ∧
      (∀ conventions runtime,
        (∀ c ∈ ((ofProgram program conventions).assemble runtime).1.components,
          ∃! file, file ∈ program.files ∧ c.modulePath = file.shownPath) ∧
        ∀ d ∈ ((ofProgram program conventions).assemble runtime).2,
          ∃! file, file ∈ program.files ∧ d.file = some file.shownPath) ∧
      ∀ p q : Path, p.IsNormal → p.IsAbsolute → q.IsNormal → q.IsAbsolute →
        (Path.shownUnder root p.text = Path.shownUnder root q.text ↔ p = q) := by
  have hfound : ∀ file ∈ program.files, program.fileAt? file.shownPath = some file :=
    fun file hfile => hprogram.fileAt?_shownPath hnormal habsolute hdistinct hfile
  have hinjective : ∀ a ∈ program.files, ∀ b ∈ program.files, a.shownPath = b.shownPath → a = b := by
    intro a ha b hb heq
    have ha := hfound a ha
    rw [heq, hfound b hb] at ha
    exact (Option.some.inj ha).symm
  refine ⟨hfound, hdistinct.of_map.map_on hinjective, fun conventions runtime => ⟨?_, ?_⟩, ?_⟩
  · intro c hc
    obtain ⟨file, hfile, hpath⟩ := exists_file_of_mem_components hc
    refine ⟨file, ⟨hfile, hpath⟩, fun other hother => ?_⟩
    exact hinjective other hother.1 file hfile (hother.2.symm.trans hpath)
  · intro d hd
    obtain ⟨file, hfile, hpath⟩ := tellOfFiles_assemble _ runtime d hd
    refine ⟨file, ⟨hfile, hpath⟩, fun other hother => ?_⟩
    exact hinjective other hother.1 file hfile (Option.some.inj (hother.2.symm.trans hpath))
  · exact fun p q hp hpabsolute hq hqabsolute =>
      Path.shownUnder_eq_iff hnormal habsolute hp hpabsolute hq hqabsolute

/-! ### A file inside the root and a file above it -/

/-- A source below the root of its project. -/
def insideSource : String × String :=
  ("src/a.ts", "export const a = 1;")

/-- A source whose path climbs out of the project and above the root of the disk. -/
def aboveSource : String × String :=
  ("../../b.ts", "export const b = 1;")

/-- A file inside the project and a file above it are found under what they are shown as. -/
theorem shown_paths_inside_and_above : ∃ program,
    Program.ofSources ⟨[.root, .name "project"]⟩ [insideSource, aboveSource] = .ok program ∧
      (∀ file ∈ program.files, program.fileAt? file.shownPath = some file) ∧
      (program.files.map (·.shownPath)).Perm ["src/a.ts", "/../b.ts"] ∧
      (program.files.map (·.shownPath)).Nodup := by
  have hnormal : Path.IsNormal ⟨[.root, .name "project"]⟩ :=
    ⟨[.root], by decide, ["project"], by decide, rfl⟩
  have hinsidePath : Path.resolveFrom ⟨[.root, .name "project"]⟩ insideSource.1 =
      ⟨[.root, .name "project", .name "src", .name "a.ts"]⟩ := by
    simp only [insideSource, Path.resolveFrom, Path.ofText, Text.splitOn_slash]
    decide +kernel
  have habovePath : Path.resolveFrom ⟨[.root, .name "project"]⟩ aboveSource.1 =
      ⟨[.root, .up, .name "b.ts"]⟩ := by
    simp only [aboveSource, Path.resolveFrom, Path.ofText, Text.splitOn_slash]
    decide +kernel
  have hinsideModule : (Source.Module.parse? (Path.text ⟨[.root, .name "project", .name "src",
      .name "a.ts"]⟩) insideSource.2).isSome := by
    decide +kernel
  have haboveModule : (Source.Module.parse? (Path.text ⟨[.root, .up, .name "b.ts"]⟩)
      aboveSource.2).isSome := by
    decide +kernel
  obtain ⟨inside, hinside⟩ := Option.isSome_iff_exists.mp hinsideModule
  obtain ⟨above, habove⟩ := Option.isSome_iff_exists.mp haboveModule
  have hprogram : Program.ofSources ⟨[.root, .name "project"]⟩ [insideSource, aboveSource] =
      .ok (.ofParsed _ [_, _]) :=
    Program.ofSources_eq_ok.mpr ⟨_, .cons (Program.parseSource_eq hinsidePath hinside)
      (.cons (Program.parseSource_eq habovePath habove) .nil), rfl⟩
  have hapart : [(⟨[.root, .name "project", .name "src", .name "a.ts"]⟩ : Path),
      ⟨[.root, .up, .name "b.ts"]⟩].Nodup := by
    decide
  have hidentified := shown_paths_identify_files hnormal ⟨_, rfl⟩ (.sources hprogram)
    ((Program.map_files_perm (·.path) _ fun _ _ => rfl).nodup_iff.mpr hapart)
  refine ⟨_, hprogram, hidentified.1,
    (Program.map_files_perm (Path.shownUnder _ ·.path.text) _ fun _ _ => rfl).trans (.of_eq ?_),
    hidentified.2.1⟩
  simp only [List.map, Path.shownUnder, Path.ofText, Text.splitOn_slash]
  decide +kernel

end Workspace

end ElementCatalog
