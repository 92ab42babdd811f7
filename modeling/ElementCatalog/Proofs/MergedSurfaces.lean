import ElementCatalog.Component.Assembly
import ElementCatalog.Proofs.MergedShapes

/-!
# Merged surfaces — where the input shape of an implementation comes from

An implementation is read part by part: a class brings in the properties of its base class and the
interfaces that it implements, a function the type of its first parameter, and a variable the type
that it is declared with.  Toward: however a surface is found, its shape is merged, from nothing,
from what types of files bring in.  So whatever merging keeps holds of every input shape, as that
the names of its members are different.
-/

namespace ElementCatalog.Surface

open Source (ClassDef Expr Function Pattern TypeExpr)
open ElementCatalog.Types

/-- A shape is merged, from nothing, from what types of files bring in. -/
inductive Merged (w : Workspace) : List ShapeMember → Prop where
  | nil : Merged w []
  | type {shape : List ShapeMember} (h : Merged w shape) (file : SourceFile) (type : TypeExpr) :
    Merged w (mergeMembers shape (w.membersIn (.ofFile file) type))
  | named {shape : List ShapeMember} (h : Merged w shape) (file : SourceFile) (name : String)
    (args : List TypeExpr) :
    Merged w (mergeMembers shape (w.namedMembersIn (.ofFile file) name args))

/-- The surface of an implementation: that of a declaration, or that of a class that stands in a
    registration. -/
inductive IsRead (w : Workspace) (s : Surface) : Prop where
  | declared {d : Declaration} (h : ofDeclaration w d = .ok s)
  | inline {name : String} {file : SourceFile} {value : ClassDef}
    (h : ofClass w name file value = s)

variable {w : Workspace} {s : Surface}

/-- Reading a class merges what its base class and its clauses bring in. -/
theorem Merged.readClass (h : Merged w s.shape) (value : ClassDef) :
    Merged w (s.readClass w value).shape := by
  rw [Surface.readClass]
  refine List.foldlRecOn (motive := fun read : Surface => Merged w read.shape) _ _ ?_
    fun read hread members hmembers => ?_
  · split
    · exact h.type s.file _
    · exact h
  · obtain ⟨parent, -, heq⟩ := List.mem_map.mp hmembers
    rw [← heq]
    split
    · exact hread.named s.file _ _
    · exact hread

/-- Reading a function merges what the type of its first parameter brings in. -/
theorem Merged.readFunction (h : Merged w s.shape) (param : Option Pattern) (body : Option Body) :
    Merged w (s.readFunction w param body).shape := by
  rw [Surface.readFunction]
  cases param.bind propsParam? with
  | none => exact h
  | some found =>
      obtain ⟨pattern, type⟩ := found
      cases type with
      | none =>
          dsimp only
          split
          · exact h
          · exact h
      | some type =>
          dsimp only
          split
          · exact h.type s.file type
          · exact h.type s.file type

/-- Reading a function that is declared with its keyword. -/
theorem Merged.readDeclared (h : Merged w s.shape) (value : Function) :
    Merged w (s.readDeclared w value).shape :=
  h.readFunction _ _

/-- Reading a class or a function that stands for itself. -/
theorem Merged.readPlain? (h : Merged w s.shape) {init : Expr} {read : Surface}
    (hread : readValue?.readPlain? w s init = some read) : Merged w read.shape := by
  rw [readValue?.readPlain?.eq_def] at hread
  split at hread
  · cases hread
    exact h.readClass _
  · cases hread
    exact h.readFunction _ _
  · cases hread
    exact h.readFunction _ _
  · cases hread
    exact h.readDeclared _
  · cases hread

/-- Reading the value of a variable, through whatever wraps it. -/
theorem Merged.readValue? {read : Surface} (depth : Nat) : ∀ {s : Surface} {init : Expr},
    Merged w s.shape → Surface.readValue? w depth s init = some read → Merged w read.shape := by
  induction depth with
  | zero => exact fun h hread => h.readPlain? hread
  | succ depth ih =>
      intro s init h hread
      have hmoved (file : SourceFile) : Merged w { s with file := file }.shape := h
      rw [Surface.readValue?] at hread
      split at hread
      · split at hread
        · cases hread
        · split at hread
          · split at hread
            · -- A name leads to the declaration that it wraps.
              split at hread
              · split at hread
                · cases hread
                  exact (hmoved _).readClass _
                · cases hread
                  exact (hmoved _).readDeclared _
                · exact ih (hmoved _) hread
                · cases hread
              · cases hread
            · exact ih h hread
          · cases hread
      · exact h.readPlain? hread

/-- The shape of a declaration is merged from what types bring in. -/
theorem merged_of_ofDeclaration {d : Declaration} (h : ofDeclaration w d = .ok s) :
    Merged w s.shape := by
  have hbare : Merged w (bare d.name d.file (d.file.docsAt d.anchors)).shape := .nil
  rw [ofDeclaration] at h
  cases hnode : d.node with
  | classNode value =>
      simp only [hnode] at h
      cases h
      exact hbare.readClass value
  | functionNode value =>
      simp only [hnode] at h
      cases h
      exact hbare.readDeclared value
  | variableNode init type =>
      simp only [hnode] at h
      cases init with
      | none => cases h
      | some init =>
          dsimp only at h
          cases hread : readValue? w wrapperDepth (bare d.name d.file (d.file.docsAt d.anchors))
              init with
          | none =>
              rw [hread] at h
              cases h
          | some read =>
              have hmerged := Merged.readValue? _ hbare hread
              rw [hread] at h
              dsimp only at h
              split at h
              · cases h
                exact hmerged.type d.file _
              · cases h
                exact hmerged
  | interfaceNode | aliasNode | enumNode =>
      simp only [hnode] at h
      cases h

/-- The shape of every implementation is merged from what types bring in. -/
theorem IsRead.merged (h : IsRead w s) : Merged w s.shape := by
  cases h with
  | declared h => exact merged_of_ofDeclaration h
  | inline h =>
      subst h
      exact Merged.nil.readClass _

/-- What is registered is the surface of an implementation. -/
theorem isRead_of_surfaceOf {file : SourceFile} {r : Registration}
    (h : w.surfaceOf file r = .ok s) : IsRead w s := by
  rw [Workspace.surfaceOf] at h
  split at h
  · cases h
    exact .inline rfl
  · split at h
    · cases h
    · split at h
      · rename_i found hfound
        cases h
        exact .declared hfound
      · cases h

/-- The members of a merged shape have different names. -/
theorem Merged.nodup_names {shape : List ShapeMember} (h : Merged w shape) :
    (shape.map (·.name)).Nodup := by
  induction h with
  | nil => exact List.nodup_nil
  | type _ file type ih => exact nodup_names_mergeMembers _ ih
  | named _ file name args ih => exact nodup_names_mergeMembers _ ih

end ElementCatalog.Surface
