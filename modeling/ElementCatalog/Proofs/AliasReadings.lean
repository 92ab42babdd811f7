import ElementCatalog.Proofs.ShapeReadings

/-!
# Aliases are read like what they stand for

A reference to an alias reads the type of the alias in a scope of its own: in the file of the alias,
with every type parameter bound to the schema of its argument, or to its default.  Toward: if the
alias is not recursive, the reference is read like that type when nothing is open.  For inside the
alias no open declaration can be reached, so it does not matter that the alias itself is open there.
-/

namespace ElementCatalog

open Source (TypeExpr TypeParam)
open ElementCatalog.Types

namespace Workspace

/-- The scope of a declaration's own types, where the arguments of a reference to it are read in the
    scope of the reference while the `opened` declarations are being expanded. -/
def boundScope (w : Workspace) (opened : List DeclarationKey) (d : Declaration)
    (args : List TypeExpr) (scope : Scope) : Scope :=
  d.ownScope w (w.expanderOn opened).schema (schemasOf w (w.expanderOn opened).schema scope args)

/-- In a scope a name refers to an alias that is not recursive, and it has no meaning of its own. -/
structure RefersToAlias (w : Workspace) (scope : Scope) (name : String) (d : Declaration)
    (decl : Source.AliasDecl) : Prop where
  unbound : Dictionary.find? scope.bindings name = none
  plain : wellKnown? name = none
  declared : w.type? scope.file name = some d
  node : d.node = .aliasNode decl
  notRecursive : ¬w.Recursive d

/-- An inner scope binds the type parameters of a declaration as a reference to it asks for, where
    the `opened` declarations are being expanded. Of two parameters of one name the last one counts. -/
structure BindsParams (w : Workspace) (opened : List DeclarationKey) (d : Declaration)
    (args : List TypeExpr) (scope inner : Scope) : Prop where
  file : inner.file = d.file
  /-- An argument is read in the scope of the reference. -/
  argument : ∀ before p after arg, d.params = before ++ p :: after →
    p.name ∉ after.map (·.name) → args[before.length]? = some arg →
      Dictionary.find? inner.bindings p.name =
        some (schemaOf w (w.expanderOn opened).schema scope arg)
  /-- A default is read in the file of the declaration, with the parameters before it bound. -/
  default : ∀ before p after, d.params = before ++ p :: after →
    p.name ∉ after.map (·.name) → args[before.length]? = none →
      Dictionary.find? inner.bindings p.name =
        some (declaredSchema w (w.expanderOn opened).schema
          (bindParams w (w.expanderOn opened).schema before
            (schemasOf w (w.expanderOn opened).schema scope args) (.ofFile d.file)) p.default)
  other : ∀ name, name ∉ d.paramNames → Dictionary.find? inner.bindings name = none

/-- A type parameter stands for its argument, or for its default. -/
theorem find?_boundScope (w : Workspace) (opened : List DeclarationKey) {d : Declaration}
    (args : List TypeExpr) (scope : Scope) {before after : List TypeParam} {p : TypeParam}
    (hparams : d.params = before ++ p :: after) (hlast : p.name ∉ after.map (·.name)) :
    let expand := (w.expanderOn opened).schema
    Dictionary.find? (w.boundScope opened d args scope).bindings p.name =
      some ((args[before.length]?.map (schemaOf w expand scope)).getD
        (declaredSchema w expand
          (bindParams w expand before (schemasOf w expand scope args) (.ofFile d.file))
          p.default)) := by
  intro expand
  rw [boundScope, Declaration.ownScope, hparams, find?_bindParams w _ hlast, schemasOf_eq_map,
    List.getElem?_map]

/-- The scope of a declaration's own types binds its type parameters. -/
theorem boundScope_bindsParams (w : Workspace) (opened : List DeclarationKey) (d : Declaration)
    (args : List TypeExpr) (scope : Scope) :
    w.BindsParams opened d args scope (w.boundScope opened d args scope) where
  file := d.file_ownScope w _ _
  argument before p after arg hparams hlast harg := by
    rw [find?_boundScope w opened args scope hparams hlast, harg]
    rfl
  default before p after hparams hlast harg := by
    rw [find?_boundScope w opened args scope hparams hlast, harg]
    rfl
  other name hname := (d.ownScope_binds w _ _).find?_none hname

/-- **Aliases**: a reference to an alias that is not recursive is read like the type of the alias in
    its own scope. -/
theorem schemaIn_aliasReference {w : Workspace} {scope : Scope} {name : String} {d : Declaration}
    {decl : Source.AliasDecl} (h : w.RefersToAlias scope name d decl) (args : List TypeExpr) :
    w.schemaIn scope (.reference (.ident name) args) =
      w.schemaIn (w.boundScope [] d args scope) decl.type.type := by
  have hdeclared : w.Declares .type d := resolve?_declares h.declared
  -- The alias is the only open declaration, and nothing that it refers to leads back to it.
  have hclear : w.Clear [d.key] (d.references w) :=
    (Clear.nil w [d]).inside (List.mem_singleton.mpr rfl) h.notRecursive
  have hagree := hclear.agreeOn fun next hnext => Refers.declares (d := d) hnext
  calc w.schemaIn scope (.reference (.ident name) args)
      = w.expander.schema d (schemasOf w w.expander.schema scope args) :=
        schemaOf_named h.unbound h.plain h.declared _
    _ = declarationSchema w (w.expanderOn [d.key]).schema d
          (schemasOf w w.expander.schema scope args) :=
        (expander_hands_down_path hdeclared []).1 _
    _ = declarationSchema w w.expander.schema d (schemasOf w w.expander.schema scope args) :=
        declarationSchema_congr hagree _
    _ = w.schemaIn (w.boundScope [] d args scope) decl.type.type :=
        (declaration_of_alias (e := w.expander) h.node _).1

end Workspace

end ElementCatalog
