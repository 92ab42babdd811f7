import ElementCatalog.Proofs.RenamedPrograms
import ElementCatalog.Proofs.ShapeReadings

/-!
# Schemas in renamed programs

Toward: in a consistently renamed program a renamed type has the schema of the type
(`Renames.schemaIn`), on every path of open declarations.  The route:

* references in a renamed scope lead to the same bindings, the same rules and to counterparts, so
  they are carried by expanders that agree on counterparts (`namesCarried`);
* counterparts are told apart like what they are renamed from, so they are open together;
* expanders agree on counterparts, by induction on the number of declarations that are not open.
-/

namespace ElementCatalog

open Source (TypeExpr Renaming renameAll)
open ElementCatalog.Types

namespace Workspace

variable {c : Nat → Renaming} {w w' : Workspace}

/-- Where something is open, its counterpart is open, and nothing else. -/
def OpenTogether (c : Nat → Renaming) (w w' : Workspace) (opened opened' : List DeclarationKey) :
    Prop :=
  ∀ d d', Counterpart c w w' d d' → (d.key ∈ opened ↔ d'.key ∈ opened')

/-- Two expanders have the same schemas for counterparts. -/
def ExpandedAlike (c : Nat → Renaming) (w w' : Workspace) (expand expand' : Expand) : Prop :=
  ∀ d d', Counterpart c w w' d d' → ∀ args, expand' d' args = expand d args

/-- Where nothing is open, no counterpart is. -/
theorem OpenTogether.nil : OpenTogether c w w' [] [] :=
  fun _ _ _ => iff_of_false List.not_mem_nil List.not_mem_nil

namespace Renames

/-! ## Names -/

/-- Renamed references have the schemas of the references if their declarations are expanded
    alike. -/
theorem namesCarried (h : Renames c w w') {expand expand' : Expand}
    (hexpand : ExpandedAlike c w w' expand expand') {scope scope' : Scope}
    (hfile : Copy w w' scope.file scope'.file)
    (hscope : scope.Renamed (c scope.file.id) scope') :
    NamesCarried (c scope.file.id) w w' expand expand' scope scope' := by
  constructor
  · intro name args hargs
    rw [schemaOf, schemaOf, hscope name, (h.proper scope.file hfile.mem).wellKnown name]
    cases Dictionary.find? scope.bindings name with
    | some bound => rfl
    | none =>
        cases wellKnown? name with
        | some rule =>
            dsimp only
            rw [firstSchema_eq, firstSchema_eq, hargs, keysArgument_rename]
        | none =>
            have hfound := h.type? hfile name
            generalize w.type? scope.file name = found at hfound
            generalize w'.type? scope'.file ((c scope.file.id).name name) = found' at hfound
            cases hfound with
            | none => rfl
            | some hd =>
                dsimp only
                rw [hargs]
                exact hexpand _ _ hd _
  · intro outer name args hargs
    have hvalues := enumMembers?_renamed (fun _ _ hd => Counterpart.renamed hd)
      (h.type? hfile outer)
    rw [schemaOf, schemaOf]
    cases hmembers : enumMembers? (w.type? scope.file outer) with
    | some members =>
        -- Members are found by their names, which an enumeration keeps.
        have hkept := h.enumerated scope.file hfile.mem outer (by rw [hmembers]; simp) name
        rw [hmembers, Option.map_some] at hvalues
        obtain ⟨members', hmembers', heq⟩ := Option.map_eq_some_iff.mp hvalues
        rw [hmembers', hkept]
        dsimp only
        rw [memberValue?, memberValue?, heq]
    | none =>
        rw [hmembers, Option.map_none] at hvalues
        rw [Option.map_eq_none_iff.mp hvalues]
        have hfound := h.qualifiedType? hfile hmembers name
        generalize w.qualifiedType? scope.file outer name = found at hfound
        generalize w'.qualifiedType? scope'.file ((c scope.file.id).name outer)
          ((c scope.file.id).inner outer name) = found' at hfound
        cases hfound with
        | none => rfl
        | some hd =>
            dsimp only
            rw [hargs]
            exact hexpand _ _ hd _

/-- Counterparts have the same schema if what they refer to is expanded alike. -/
theorem declarationSchema (h : Renames c w w') {expand expand' : Expand}
    (hexpand : ExpandedAlike c w w' expand expand') :
    ExpandedAlike c w w' (Types.declarationSchema w expand)
      (Types.declarationSchema w' expand') := by
  intro d d' hd args
  refine declarationSchema_renamed hd.renamed (h.proper d.file hd.declared.file_mem).name ?_ args
  intro scope scope' hfile hfile' hscope
  rw [← hfile] at hscope ⊢
  refine h.namesCarried hexpand ?_ hscope
  rw [hfile, hfile']
  exact hd.copy

/-! ## Paths -/

/-- Counterparts are told apart like what they are renamed from. -/
theorem key_eq_iff (h : Renames c w w') {d d' e e' : Declaration}
    (hd : Counterpart c w w' d d') (he : Counterpart c w w' e e') :
    d'.key = e'.key ↔ d.key = e.key := by
  simp only [Declaration.key, Prod.mk.injEq, hd.renamed.file.id, he.renamed.file.id,
    hd.renamed.start, he.renamed.start]
  refine and_congr_right fun hfile => ?_
  rw [← hfile]
  exact (h.proper d.file hd.declared.file_mem).move d.start e.start

/-- Looking into counterparts opens them together. -/
theorem openTogether_cons (h : Renames c w w') {opened opened' : List DeclarationKey}
    (hopen : OpenTogether c w w' opened opened') {d d' : Declaration}
    (hd : Counterpart c w w' d d') :
    OpenTogether c w w' (d.key :: opened) (d'.key :: opened') := by
  intro e e' he
  rw [List.mem_cons, List.mem_cons, h.key_eq_iff he hd, hopen e e' he]

/-- **Renamed declarations**: on paths that have counterparts open together, expanders have the same
    schemas for counterparts. -/
theorem expanderOn (h : Renames c w w') (room : Nat) : ∀ {opened opened' : List DeclarationKey},
    (w.closedKeys opened).card ≤ room → OpenTogether c w w' opened opened' →
      ExpandedAlike c w w' (w.expanderOn opened).schema (w'.expanderOn opened').schema := by
  induction room with
  | zero =>
      intro opened opened' hroom hopen d d' hd args
      -- Nothing is left to be opened, so the declaration is open.
      have hmem : d.key ∈ opened := by
        by_contra hclosed
        have hlt := card_closedKeys_lt hd.declared hclosed
        omega
      rw [Workspace.expanderOn, Workspace.expanderOn,
        (expander_hands_down_path hd.declared opened).1 args,
        (expander_hands_down_path hd.declared' opened').1 args,
        if_pos (List.contains_iff_mem.mpr hmem),
        if_pos (List.contains_iff_mem.mpr ((hopen d d' hd).mp hmem))]
  | succ room ih =>
      intro opened opened' hroom hopen d d' hd args
      rw [Workspace.expanderOn, Workspace.expanderOn,
        (expander_hands_down_path hd.declared opened).1 args,
        (expander_hands_down_path hd.declared' opened').1 args]
      by_cases hmem : d.key ∈ opened
      · rw [if_pos (List.contains_iff_mem.mpr hmem),
          if_pos (List.contains_iff_mem.mpr ((hopen d d' hd).mp hmem))]
      · rw [if_neg fun hcontains => hmem (List.contains_iff_mem.mp hcontains),
          if_neg fun hcontains => hmem ((hopen d d' hd).mpr (List.contains_iff_mem.mp hcontains))]
        have hlt := card_closedKeys_lt hd.declared hmem
        exact h.declarationSchema (ih (by omega) (h.openTogether_cons hopen hd)) d d' hd args

/-! ## Types -/

/-- **Renamed types**: in a consistently renamed program a renamed type has the schema of the
    type. -/
theorem schemaIn (h : Renames c w w') {scope scope' : Scope}
    (hfile : Copy w w' scope.file scope'.file) (hscope : scope.Renamed (c scope.file.id) scope')
    (type : TypeExpr) :
    w'.schemaIn scope' (type.rename (c scope.file.id)) = w.schemaIn scope type :=
  schemaOf_rename
    (h.namesCarried (h.expanderOn _ (w.card_closedKeys_le []) .nil) hfile hscope) type

end Renames

end Workspace

end ElementCatalog
