import ElementCatalog.Types.Expansion
import Mathlib.Logic.Relation

/-!
# References — the declarations that a type leads to

A type refers to the declarations whose expansions its schema is made of. A name that is a type
parameter refers to none, and neither do the types of functions and methods, which describe no data.
A declaration is recursive if following references leads from it back to it.
-/

namespace ElementCatalog

open Source (TypeExpr TypeMember TypeParam Heritage)
open ElementCatalog.Types

mutual

/-- The declarations that a type refers to, where the `params` are type parameters. -/
def referencesOf (w : Workspace) (file : SourceFile) (params : List String) :
    TypeExpr → List Declaration
  | .reference (.ident name) args =>
    if params.contains name then []
    else (w.type? file name).toList ++ referencesOfAll w file params args
  | .reference (.qualified (.ident outer) name) args =>
    (w.qualifiedType? file outer name).toList ++ referencesOfAll w file params args
  | .reference (.qualified (.qualified _ _) _) _ => []
  | .object members => referencesOfMembers w file params members
  | .array items => referencesOf w file params items
  | .tuple elements => referencesOfAll w file params elements
  | .optional type => referencesOf w file params type
  | .rest type => referencesOf w file params type
  | .union members => referencesOfAll w file params members
  | .intersection members => referencesOfAll w file params members
  | .paren type => referencesOf w file params type
  | .readonly type => referencesOf w file params type
  | .keyof type => referencesOf w file params type
  | .indexed object _ => referencesOf w file params object
  | .keyword _ => []
  | .literal _ => []
  | .mapped => []
  | .predicate => []
  | .function _ => []
  | .other => []

/-- The declarations that several types refer to. -/
def referencesOfAll (w : Workspace) (file : SourceFile) (params : List String) :
    List TypeExpr → List Declaration
  | [] => []
  | type :: rest => referencesOf w file params type ++ referencesOfAll w file params rest

/-- The declarations that a declared type refers to, if there is one. -/
def referencesOfDeclared (w : Workspace) (file : SourceFile) (params : List String) :
    Option TypeExpr → List Declaration
  | none => []
  | some type => referencesOf w file params type

/-- The declarations that a member of an object type refers to. -/
def referencesOfMember (w : Workspace) (file : SourceFile) (params : List String) :
    TypeMember → List Declaration
  | .property _ _ _ type => referencesOfDeclared w file params type
  | .getter _ _ type => referencesOfDeclared w file params type
  | .method _ _ _ _ => []
  | .other => []

/-- The declarations that the members of an object type refer to. -/
def referencesOfMembers (w : Workspace) (file : SourceFile) (params : List String) :
    List TypeMember → List Declaration
  | [] => []
  | member :: rest =>
    referencesOfMember w file params member ++ referencesOfMembers w file params rest

end

/-- The declarations that the defaults of type parameters refer to. The parameters before one may
    occur in its default. -/
def referencesOfDefaults (w : Workspace) (file : SourceFile) :
    (params : List String) → List TypeParam → List Declaration
  | _, [] => []
  | params, param :: rest =>
    referencesOfDeclared w file params param.default ++
      referencesOfDefaults w file (params ++ [param.name]) rest

/-- The declarations that a parent refers to. -/
def referencesOfParent (w : Workspace) (file : SourceFile) (params : List String)
    (parent : Heritage) : List Declaration :=
  match parent.name? with
  | some name => referencesOf w file params (.reference name (parent.args.map (·.type)))
  | none => []

namespace Declaration

/-- The type parameters of a declaration. -/
def params (d : Declaration) : List TypeParam :=
  match d.node with
  | .interfaceNode decl => decl.params
  | .aliasNode decl => decl.params
  | .classNode value => value.params
  | _ => []

/-- The names of the type parameters of a declaration. -/
def paramNames (d : Declaration) : List String :=
  d.params.map (·.name)

/-- The declarations that the parts of a declaration refer to: what an interface extends and its
    members, the type of an alias, and the fields of a class. -/
def partReferences (w : Workspace) (d : Declaration) : List Declaration :=
  match d.node with
  | .interfaceNode decl =>
    decl.parents.flatMap (referencesOfParent w d.file d.paramNames) ++
      referencesOfMembers w d.file d.paramNames decl.members
  | .aliasNode decl => referencesOf w d.file d.paramNames decl.type.type
  | .classNode value =>
    (classFields value).flatMap fun field =>
      referencesOfDeclared w d.file d.paramNames field.type
  | _ => []

/-- The declarations that a declaration refers to. -/
def references (w : Workspace) (d : Declaration) : List Declaration :=
  referencesOfDefaults w d.file [] d.params ++ d.partReferences w

end Declaration

namespace Workspace

/-- One declaration refers to another. -/
def Refers (w : Workspace) (d target : Declaration) : Prop :=
  target ∈ d.references w

/-- References lead from one declaration to another. -/
def Reaches (w : Workspace) : Declaration → Declaration → Prop :=
  Relation.ReflTransGen w.Refers

/-- References lead from a declaration back to it. -/
def Recursive (w : Workspace) (d : Declaration) : Prop :=
  ∃ target, Relation.TransGen w.Refers d target ∧ target.key = d.key

end Workspace

end ElementCatalog
