import ElementCatalog.Proofs.ExportSearch
import ElementCatalog.Text.Splitting

/-!
# Namespaces of modules — qualified types

A qualified name is looked up where its first part is a namespace import.  Toward: it refers to a type
exactly if the exports of the imported module lead to one, and then to the type that an import of its
name from this module brings in; a first part that is imported by name is no namespace, also where the
exports of its module lead to one.  The route:

* a qualified name is looked up among the exports of the imported module alone
  (`qualifiedType?_eq_some_iff`);
* an import by name looks there first (`imported?_of_chain`), so both find the end of a chain of
  exports if there is one;
* where a chain of exports ends at a namespace (`HandsOnNamespace`), an import of the type finds it
  and the qualified name does not.
-/

namespace ElementCatalog.Workspace

variable {w : Workspace} {file target : SourceFile} {outer name specifier : String}

/-! ## Qualified types -/

/-- A finite chain of exports that ends at an export of a whole module as a namespace. -/
inductive HandsOnNamespace (w : Workspace) : SourceFile → String → SourceFile → Prop where
  | made {file target : SourceFile} {exported specifier : String}
      (hexport : .fromModule exported "*" specifier ∈ (w.symbolsOf file).exports)
      (htarget : w.moduleFile? file specifier = some target) :
      HandsOnNamespace w file exported target
  | leads {file middle target : SourceFile} {exported inner : String}
      (h : LeadsTo w .type file exported middle inner)
      (rest : HandsOnNamespace w middle inner target) : HandsOnNamespace w file exported target

/-- A qualified type is an export of the module whose namespace is imported. -/
theorem qualifiedType?_eq_some_iff {d : Declaration} :
    w.qualifiedType? file outer name = some d ↔
      ∃ i m, (w.symbolsOf file).import? outer = some i ∧ i.imported = "*" ∧
        w.moduleFile? file i.specifier = some m ∧ w.exported? .type m name = some d := by
  rw [qualifiedType?]
  constructor
  · intro h
    obtain ⟨i, hi, hrest⟩ := Option.bind_eq_some_iff.mp h
    obtain ⟨-, -, hfound⟩ := Option.bind_eq_some_iff.mp hrest
    obtain ⟨m, hm, hd⟩ := Option.bind_eq_some_iff.mp hfound
    have hname : i.imported = "*" := by
      by_contra hnot
      simp [guard, hnot] at hrest
    exact ⟨i, m, hi, hname, hm, hd⟩
  · rintro ⟨i, m, hi, hname, hm, hd⟩
    simp [hi, hname, hm, hd]

/-- A name that is not imported as a namespace qualifies no type. -/
theorem qualifiedType?_of_name {i : Import} (hi : (w.symbolsOf file).import? outer = some i)
    (hname : i.imported ≠ "*") : w.qualifiedType? file outer name = none := by
  cases h : w.qualifiedType? file outer name with
  | none => rfl
  | some d =>
      obtain ⟨j, -, hj, hstar, -, -⟩ := qualifiedType?_eq_some_iff.mp h
      rw [hi, Option.some.injEq] at hj
      rw [hj] at hname
      exact absurd hstar hname

/-- A module of the program exports a type exactly if a chain of exports ends at one. -/
theorem exists_exported?_iff (hfile : file ∈ w.program.files) :
    (∃ d, w.exported? .type file name = some d) ↔ ∃ d, ExportChain w .type file name d := by
  constructor
  · rintro ⟨d, hd⟩
    exact ⟨d, exported?_sound hfile hd⟩
  · rintro ⟨d, hchain⟩
    have hsearch : Searches w .type [] [.lookIn file name] (w.exported? .type file name) :=
      searches_exported? hfile name
    cases hfound : w.exported? .type file name with
    | some found => exact ⟨found, rfl⟩
    | none =>
        rw [hfound] at hsearch
        exact absurd hchain (hsearch.complete hfile d)

/-- If a chain of exports ends at a type, an import of its name brings in what is exported. -/
theorem imported?_of_chain (htarget : w.moduleFile? file specifier = some target)
    (hchain : ∃ d, ExportChain w .type target name d) (localName : String) :
    w.imported? .type file ⟨localName, name, specifier⟩ = w.exported? .type target name := by
  obtain ⟨d, hd⟩ := (exists_exported?_iff (moduleFile?_mem htarget)).mpr hchain
  rw [imported?, htarget, Option.bind_some, hd]
  rfl

/-- An import of a name finds nothing exactly if no chain of exports ends at a type, and none of the
    files that it may mean declares one. -/
theorem imported?_eq_none_iff (htarget : w.moduleFile? file specifier = some target)
    (localName : String) :
    w.imported? .type file ⟨localName, name, specifier⟩ = none ↔
      (¬∃ d, ExportChain w .type target name d) ∧
        w.unexported? .type file ⟨localName, name, specifier⟩ = none := by
  rw [imported?, htarget, Option.bind_some, Option.or_eq_none_iff,
    ← exists_exported?_iff (moduleFile?_mem htarget)]
  simp [Option.eq_none_iff_forall_ne_some]

/-- **Qualified types**: a qualified name refers to a type exactly if its first part is imported as
    the namespace of a module whose exports lead to one, along any finite chain, and then to the type
    that an import of its name from this module brings in.  A first part that is imported by name
    qualifies no type, whatever it is exported as, so the qualified name agrees with an import from
    another module exactly if this import brings in nothing. -/
theorem qualified_type_iff_namespace_import (w : Workspace) (file : SourceFile)
    (outer name : String) :
    ((∃ d, w.qualifiedType? file outer name = some d) ↔
      ∃ i m d, (w.symbolsOf file).import? outer = some i ∧ i.imported = "*" ∧
        w.moduleFile? file i.specifier = some m ∧ ExportChain w .type m name d) ∧
    (∀ i m, (w.symbolsOf file).import? outer = some i → i.imported = "*" →
      w.moduleFile? file i.specifier = some m → (∃ d, ExportChain w .type m name d) →
        w.qualifiedType? file outer name = w.imported? .type file ⟨name, name, i.specifier⟩) ∧
    (∀ i, (w.symbolsOf file).import? outer = some i → i.imported ≠ "*" →
      w.qualifiedType? file outer name = none ∧
        ∀ target specifier, w.moduleFile? file specifier = some target →
          (w.qualifiedType? file outer name = w.imported? .type file ⟨name, name, specifier⟩ ↔
            (¬∃ d, ExportChain w .type target name d) ∧
              w.unexported? .type file ⟨name, name, specifier⟩ = none)) := by
  refine ⟨⟨?_, ?_⟩, ?_, ?_⟩
  · rintro ⟨d, hd⟩
    obtain ⟨i, m, hi, hstar, hm, hexported⟩ := qualifiedType?_eq_some_iff.mp hd
    exact ⟨i, m, d, hi, hstar, hm, exported?_sound (moduleFile?_mem hm) hexported⟩
  · rintro ⟨i, m, d, hi, hstar, hm, hchain⟩
    obtain ⟨found, hfound⟩ := (exists_exported?_iff (moduleFile?_mem hm)).mpr ⟨d, hchain⟩
    exact ⟨found, qualifiedType?_eq_some_iff.mpr ⟨i, m, hi, hstar, hm, hfound⟩⟩
  · intro i m hi hstar hm hchain
    obtain ⟨found, hfound⟩ := (exists_exported?_iff (moduleFile?_mem hm)).mpr hchain
    rw [imported?_of_chain hm hchain, hfound]
    exact qualifiedType?_eq_some_iff.mpr ⟨i, m, hi, hstar, hm, hfound⟩
  · intro i hi hname
    have hnone : w.qualifiedType? file outer name = none := qualifiedType?_of_name hi hname
    refine ⟨hnone, ?_⟩
    intro target specifier htarget
    rw [hnone, ← imported?_eq_none_iff htarget]
    exact eq_comm

/-! ## A namespace that is made by a re-export -/

/-- A file of a program in the root directory. -/
def rootFile (id : Nat) (name : String) (items : List Source.Stmt) : SourceFile :=
  ⟨id, ⟨[.root, .name name]⟩, name, ⟨items, []⟩, true⟩

/-- A module that hands on all of another one under a name. -/
def namespaceBarrel : SourceFile :=
  rootFile 0 "barrel.ts" [.exportNames [⟨"ns", "*"⟩] (some ⟨"./models", true⟩) none]

/-- A module that imports this name. -/
def namespaceUser : SourceFile :=
  rootFile 1 "main.ts" [.importFrom [⟨"ns", "ns"⟩] ⟨"./barrel", true⟩ none]

/-- The module that is handed on. -/
def namespaceModels : SourceFile :=
  rootFile 2 "models.ts" [.exported ⟨0, 1⟩ (.interfaceDecl ⟨⟨7, 1⟩, "User", [], [], [], []⟩)]

/-- The program of these modules. -/
def namespaceProgram : Program where
  root := ⟨[.root]⟩
  files := [namespaceBarrel, namespaceUser, namespaceModels]
  id_eq_place := by
    intro place file h
    rcases place with _ | _ | _ | place
    · cases h
      rfl
    · cases h
      rfl
    · cases h
      rfl
    · cases h

/-- The workspace of these modules. -/
def namespaceWorkspace : Workspace :=
  .ofProgram namespaceProgram {}

/-- A specifier in the root directory means the file with the extension of sources. -/
theorem moduleFile?_root (base : Path) {source target : SourceFile} {specifier : String}
    (hcandidates : (Path.moduleCandidates source.path specifier).take 2 = [base, target.path])
    (hbase : namespaceWorkspace.program.file? base = none)
    (htarget : namespaceWorkspace.program.file? target.path = some target) :
    namespaceWorkspace.moduleFile? source specifier = some target := by
  rw [moduleFile?, ← List.take_append_drop 2 (Path.moduleCandidates source.path specifier),
    hcandidates]
  simp [hbase, htarget]

/-- The module that is handed on is found where it is imported directly, and not through the name
    that it is handed on under. -/
theorem reexported_namespace_not_followed :
    ∃ i m target, (namespaceWorkspace.symbolsOf namespaceUser).import? "ns" = some i ∧
      i.imported ≠ "*" ∧ namespaceWorkspace.moduleFile? namespaceUser i.specifier = some m ∧
      HandsOnNamespace namespaceWorkspace m i.imported target ∧
      namespaceWorkspace.moduleFile? namespaceUser "./models" = some target ∧
      namespaceWorkspace.qualifiedType? namespaceUser "ns" "User" ≠
        namespaceWorkspace.imported? .type namespaceUser ⟨"User", "User", "./models"⟩ := by
  have hbarrel : namespaceWorkspace.moduleFile? namespaceUser "./barrel" = some namespaceBarrel := by
    refine moduleFile?_root ⟨[.root, .name "barrel"]⟩ ?_ rfl rfl
    simp only [Path.moduleCandidates, Path.specifierBase?, Path.resolveFrom, Path.ofText,
      Text.splitOn_slash]
    decide +kernel
  have hmodels : ∀ source : SourceFile, source.path.parent? = some ⟨[.root]⟩ →
      namespaceWorkspace.moduleFile? source "./models" = some namespaceModels := by
    intro source hparent
    refine moduleFile?_root ⟨[.root, .name "models"]⟩ ?_ rfl rfl
    simp only [Path.moduleCandidates, Path.specifierBase?, hparent, Path.resolveFrom, Path.ofText,
      Text.splitOn_slash]
    decide +kernel
  have himport : (namespaceWorkspace.symbolsOf namespaceUser).import? "ns" =
      some ⟨"ns", "ns", "./barrel"⟩ := rfl
  have hname : ("ns" : String) ≠ "*" := by decide
  have hexport : .fromModule "ns" "*" "./models" ∈
      (namespaceWorkspace.symbolsOf namespaceBarrel).exports := List.mem_cons_self
  refine ⟨_, namespaceBarrel, namespaceModels, himport, hname, hbarrel,
    .made hexport (hmodels namespaceBarrel rfl), hmodels namespaceUser rfl, ?_⟩
  obtain ⟨user, huser⟩ :
      ∃ d, (namespaceWorkspace.symbolsOf namespaceModels).declared? .type "User" = some d :=
    ⟨_, rfl⟩
  have hchain : ∃ d, ExportChain namespaceWorkspace .type namespaceModels "User" d :=
    ⟨user, .ends ⟨"User", List.mem_cons_self, huser⟩⟩
  -- The qualified name finds nothing, so an import that agrees with it would find nothing either.
  intro heq
  rw [qualifiedType?_of_name himport hname] at heq
  exact ((imported?_eq_none_iff (hmodels namespaceUser rfl) "User").mp heq.symm).1 hchain

end ElementCatalog.Workspace
