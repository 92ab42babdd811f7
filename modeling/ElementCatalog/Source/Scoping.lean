import ElementCatalog.Source.Place
import Mathlib.Data.List.Induction

/-!
# Scoping — what the names in a source refer to

A name is bound by a parameter, by a declaration, or where a failure is caught, and what binds it has
a scope: the function of the parameter, the innermost block or function around the declaration, the
block that handles the failure.  A name refers to what the innermost scope around it binds under this
name; of several binders in one scope the last one before it counts.

Sources do not keep everything that scoping depends on.  Every statement that is kept as the list of
its parts is a block, so a declaration in the head of a loop belongs to the loop.  The keyword of a
declaration is not kept, so every variable belongs to its block.  Names that functions and classes
have only for themselves are not kept, and the decorators of a function are counted as parts of it.
-/

namespace ElementCatalog.Source

/-! ## Binders -/

mutual

/-- The names that a pattern binds. -/
def Pattern.names : Pattern → List String
  | .ident name _ => [name]
  | .array elements _ => Pattern.namesOf elements
  | .object entries _ => Pattern.namesOf entries
  | .withDefault target _ => target.names
  | .rest target _ => target.names
  | .expr _ => []
  | .hole => []
  | .keyed _ target => target.names
  | .shorthand name _ => [name]
  | .decorated _ target => target.names

/-- The names that some patterns bind. -/
def Pattern.namesOf : List Pattern → List String
  | [] => []
  | first :: others => first.names ++ Pattern.namesOf others

end

namespace Node

/-- What is declared in a node is not known outside. -/
def isScope : Node → Bool
  | .function _ => true
  | .expr (.arrow _ _ _) => true
  | .expr (.arrowTo _ _ _) => true
  | .member (.initializer _ _ _) => true
  | .member (.staticBlock _ _) => true
  | .property (.accessor _ _ _ _) => true
  | .stmt (.namespaceDecl _) => true
  | .stmt (.other _) => true
  | _ => false

/-- The parameters of a node. -/
def parameters : Node → List Pattern
  | .function value => value.params
  | .expr (.arrow params _ _) => params
  | .expr (.arrowTo params _ _) => params
  | .member (.initializer _ params _) => params
  | .property (.accessor _ params _ _) => params
  | _ => []

/-- The names that a node declares in the scope around it. -/
def declaredNames : Node → List String
  | .declarator value => value.target.names
  | .stmt (.classDecl name _) => [name]
  | .stmt (.functionDecl name _) => [name]
  | .stmt (.enumDecl _ name _) => [name]
  | .stmt (.exportClass _ name _) => name.toList
  | .stmt (.exportFunction _ name _) => name.toList
  | .stmt (.importFrom specifiers _ _) => specifiers.map (·.localName)
  | _ => []

/-- Only scopes have parameters. -/
theorem isScope_of_mem_parameters {n : Node} {p : Pattern} (h : p ∈ n.parameters) :
    n.isScope = true := by
  unfold parameters at h
  split at h
  · rfl
  · rfl
  · rfl
  · rfl
  · rfl
  · cases h

end Node

section Scopes

variable (roots : List Node)

/-- A scope: a node that is one, or all roots together. -/
def ScopeAt (place : Place) : Prop :=
  place = [] ∨ ∃ n, Node.at? roots place = some n ∧ n.isScope = true

/-- The innermost scope around a place. -/
structure ScopeAround (place scope : Place) : Prop where
  scopeAt : ScopeAt roots scope
  encloses : scope.Encloses place
  innermost : ∀ other, ScopeAt roots other → other.Encloses place → other <+: scope

/-- A place binds a name in a scope. -/
inductive Binder (name : String) : Place → Place → Prop where
  | parameter {place : Place} {n : Node} {p : Pattern} (hnode : Node.at? roots place = some n)
    (hmem : p ∈ n.parameters) (hname : name ∈ p.names) : Binder name place place
  | declared {place scope : Place} {n : Node} (hnode : Node.at? roots place = some n)
    (hname : name ∈ n.declaredNames) (hscope : ScopeAround roots place scope) :
    Binder name place scope
  | caught {place : Place} {parts block : List Stmt} {i : Nat} {p : Pattern}
    (hnode : Node.at? roots place = some (.stmt (.other parts)))
    (hcaught : parts[i]? = some (.target p)) (hblock : parts[i + 1]? = some (.other block))
    (hname : name ∈ p.names) : Binder name (place ++ [i]) (place ++ [i + 1])

/-- At a place a name refers to what another place binds: this place binds the name in a scope around
    the first one, no scope further in binds the name, and of the binders in this scope it is the
    last one before the first place. -/
inductive RefersTo (name : String) (place : Place) : Place → Prop where
  | mk {binder scope : Place} (hbinder : Binder roots name binder scope)
    (hencloses : scope.Encloses place) (hbefore : binder.Before place)
    (hinnermost : ∀ other inner, Binder roots name other inner → inner.Encloses place →
      inner <+: scope)
    (hlast : ∀ other, Binder roots name other scope → other.Before place → ¬binder.Before other) :
    RefersTo name place binder

end Scopes

variable {roots : List Node} {name : String} {place scope : Place}

/-- Around every place there is an innermost scope. -/
theorem exists_scopeAround (hplace : place ≠ []) : ∃ scope, ScopeAround roots place scope := by
  induction place using List.reverseRecOn with
  | nil => exact absurd rfl hplace
  | append_singleton outer i ih =>
      by_cases hscope : ScopeAt roots outer
      · refine ⟨outer, hscope, Place.encloses_concat_iff.mpr (List.prefix_refl outer), ?_⟩
        exact fun other _ hother => Place.encloses_concat_iff.mp hother
      · have houter : outer ≠ [] := fun heq => hscope (Or.inl heq)
        obtain ⟨scope, hat, hencloses, hinnermost⟩ := ih houter
        refine ⟨scope, hat, Place.encloses_concat_iff.mpr hencloses.1, ?_⟩
        intro other hother hpre
        refine hinnermost other hother ⟨Place.encloses_concat_iff.mp hpre, ?_⟩
        rintro rfl
        exact hscope hother

/-- There is one innermost scope around a place. -/
theorem ScopeAround.unique {scope' : Place} (h : ScopeAround roots place scope)
    (h' : ScopeAround roots place scope') : scope = scope' :=
  (h'.innermost scope h.scopeAt h.encloses).eq_of_length_le
    (h.innermost scope' h'.scopeAt h'.encloses).length_le

/-- The parts of a block are its statements. -/
theorem at?_part {parts : List Stmt} (h : Node.at? roots place = some (.stmt (.other parts)))
    (i : Nat) : Node.at? roots (place ++ [i]) = parts[i]?.map .stmt := by
  rw [Node.at?_concat h]
  exact List.getElem?_map

/-- What binds a name binds it in a scope. -/
theorem Binder.scopeAt (h : Binder roots name place scope) : ScopeAt roots scope := by
  cases h with
  | parameter hnode hmem _ => exact Or.inr ⟨_, hnode, Node.isScope_of_mem_parameters hmem⟩
  | declared _ _ hscope => exact hscope.scopeAt
  | @caught outer parts block i p hnode _ hblock _ =>
      refine Or.inr ⟨.stmt (.other block), ?_, rfl⟩
      rw [at?_part hnode, hblock]
      rfl

/-- A node that binds a name has a parameter with this name, declares it in the innermost scope
    around it, or catches a failure. -/
theorem Binder.node_cases {n : Node} (h : Binder roots name place scope)
    (hn : Node.at? roots place = some n) :
    (scope = place ∧ ∃ p ∈ n.parameters, name ∈ p.names) ∨
      (name ∈ n.declaredNames ∧ ScopeAround roots place scope) ∨ ∃ p, n = .stmt (.target p) := by
  cases h with
  | @parameter _ m p hnode hmem hname =>
      cases Option.some.inj (hn.symm.trans hnode)
      exact Or.inl ⟨rfl, p, hmem, hname⟩
  | declared hnode hname hscope =>
      rw [hn] at hnode
      cases hnode
      exact Or.inr (Or.inl ⟨hname, hscope⟩)
  | @caught outer parts block i p hnode hcaught hblock hname =>
      rw [at?_part hnode, hcaught] at hn
      cases hn
      exact Or.inr (Or.inr ⟨p, rfl⟩)

end ElementCatalog.Source
