import ElementCatalog.Proofs.MergedShapes
import ElementCatalog.Proofs.OpenDeclarations

/-!
# Type parameters in the place of shapes

A generic alias may build a shape around its type parameter, as in `P & { id: string }`.  When the
schema of a reference to it is read, the parameter stands for the argument; when its members are
read, the name of the parameter is looked up in the file of the alias.  Toward: which members the
reference then has, and exactly when they have the names and the optionality of the body filled with
the argument.  The route:

* the members of a type are those of the type filled with what the name of the parameter is taken
  for;
* what a type makes of a name is told by whether the parameter lists the name, and whether as
  optional.
-/

namespace ElementCatalog

open Source (TypeExpr)
open ElementCatalog.Types

namespace Types

/-! ## Filling -/

section Filling

variable (w : Workspace) (e : Expander) (scope : Scope) (param : String)

mutual

/-- The members of a type in which a type parameter has the given members, wherever it stands in the
    place of a shape. -/
def filledMembers (given : List ShapeMember) : TypeExpr → List ShapeMember
  | .paren type => filledMembers given type
  | .readonly type => filledMembers given type
  | .intersection members => filledMerge given [] members
  | .reference (.ident name) [] =>
    if name = param then given else membersOf w e scope (.reference (.ident name) [])
  | .reference (.ident name) (first :: rest) =>
    match shapeChange? name with
    | some change => change.apply (keysArgument (first :: rest)) (filledMembers given first)
    | none => membersOf w e scope (.reference (.ident name) (first :: rest))
  | type => membersOf w e scope type

/-- The members of several types with the given members of a type parameter, later ones over earlier
    ones. -/
def filledMerge (given shape : List ShapeMember) : List TypeExpr → List ShapeMember
  | [] => shape
  | type :: rest => filledMerge given (mergeMembers shape (filledMembers given type)) rest

end

mutual

/-- A type with another one in the place of a type parameter, wherever this stands in the place of a
    shape. -/
def replaceParam (argument : TypeExpr) : TypeExpr → TypeExpr
  | .paren type => .paren (replaceParam argument type)
  | .readonly type => .readonly (replaceParam argument type)
  | .intersection members => .intersection (replaceParams argument members)
  | .reference (.ident name) [] => if name = param then argument else .reference (.ident name) []
  | .reference (.ident name) (first :: rest) =>
    match shapeChange? name with
    | some _ => .reference (.ident name) (replaceParam argument first :: rest)
    | none => .reference (.ident name) (first :: rest)
  | type => type

/-- Several types with another one in the place of a type parameter. -/
def replaceParams (argument : TypeExpr) : List TypeExpr → List TypeExpr
  | [] => []
  | type :: rest => replaceParam argument type :: replaceParams argument rest

end

mutual

/-- Putting a type parameter in its own place changes nothing. -/
theorem replaceParam_self : ∀ type : TypeExpr,
    replaceParam param (.reference (.ident param) []) type = type
  | .paren type | .readonly type => by
      rw [replaceParam, replaceParam_self type]
  | .intersection members => by
      rw [replaceParam, replaceParams_self members]
  | .reference (.ident name) [] => by
      rw [replaceParam]
      split
      · rename_i hname
        rw [hname]
      · rfl
  | .reference (.ident name) (first :: rest) => by
      rw [replaceParam]
      split
      · rw [replaceParam_self first]
      · rfl
  | .reference (.qualified _ _) _ | .keyword _ | .literal _ | .object _ | .array _ | .tuple _
  | .optional _ | .rest _ | .union _ | .keyof _ | .indexed _ _ | .mapped | .predicate
  | .function _ | .other => by
      rw [replaceParam] <;> nofun

/-- Putting a type parameter in its own place changes none of several types. -/
theorem replaceParams_self : ∀ types : List TypeExpr,
    replaceParams param (.reference (.ident param) []) types = types
  | [] => rfl
  | type :: rest => by
      rw [replaceParams, replaceParam_self type, replaceParams_self rest]

end

mutual

/-- A type that stands in the place of a type parameter brings its own members in. -/
theorem membersOf_replaceParam (argument : TypeExpr) : ∀ type : TypeExpr,
    membersOf w e scope (replaceParam param argument type) =
      filledMembers w e scope param (membersOf w e scope argument) type
  | .paren type | .readonly type => by
      rw [replaceParam, membersOf, filledMembers, membersOf_replaceParam argument type]
  | .intersection members => by
      rw [replaceParam, membersOf, filledMembers, mergedMembersOf_replaceParams argument members]
  | .reference (.ident name) [] => by
      rw [replaceParam, filledMembers]
      split <;> rfl
  | .reference (.ident name) (first :: rest) => by
      rw [replaceParam, filledMembers]
      cases hchange : shapeChange? name with
      | none => rfl
      | some change =>
          have hkeys : keysArgument (replaceParam param argument first :: rest) =
              keysArgument (first :: rest) := by
            cases rest <;> rfl
          dsimp only
          rw [membersOf, namedMembers, hchange]
          dsimp only
          rw [hkeys, membersOf_replaceParam argument first]
  | .reference (.qualified _ _) _ | .keyword _ | .literal _ | .object _ | .array _ | .tuple _
  | .optional _ | .rest _ | .union _ | .keyof _ | .indexed _ _ | .mapped | .predicate
  | .function _ | .other => by
      rw [replaceParam, filledMembers] <;> nofun

/-- Several types that hold another one in the place of a type parameter. -/
theorem mergedMembersOf_replaceParams (argument : TypeExpr) : ∀ (types : List TypeExpr)
    (shape : List ShapeMember),
    mergedMembersOf w e scope shape (replaceParams param argument types) =
      filledMerge w e scope param (membersOf w e scope argument) shape types
  | [], _ => rfl
  | type :: rest, shape => by
      rw [replaceParams, mergedMembersOf, filledMerge, membersOf_replaceParam argument type,
        mergedMembersOf_replaceParams argument rest]

end

/-- The members of a type are those of the type filled with what the name of a type parameter is
    taken for. -/
theorem membersOf_eq_filledMembers (type : TypeExpr) :
    membersOf w e scope type = filledMembers w e scope param
      (membersOf w e scope (.reference (.ident param) [])) type := by
  rw [← membersOf_replaceParam, replaceParam_self]

end Filling

/-! ## Optionality -/

/-- Whether a shape lists a name, and then whether as optional. Of several members of one name the
    last one counts. -/
def optionality? (shape : List ShapeMember) (name : String) : Option Bool :=
  (shape.reverse.find? (·.name == name)).map (·.optional)

/-- What the change of a shape makes of a name. -/
def ShapeChange.onOptionality (keys : List String) (name : String) (given : Option Bool) :
    ShapeChange → Option Bool
  | .setOptional optional => given.map fun _ => optional
  | .keep => given
  | .pick => if keys.contains name then given else none
  | .omit => if keys.contains name then none else given

/-- The last member counts. -/
theorem optionality?_concat (shape : List ShapeMember) (m : ShapeMember) (name : String) :
    optionality? (shape ++ [m]) name =
      if m.name = name then some m.optional else optionality? shape name := by
  rw [optionality?, List.reverse_concat, List.find?_cons]
  by_cases h : m.name = name
  · rw [if_pos h, beq_iff_eq.mpr h]
    rfl
  · rw [if_neg h, beq_eq_false_iff_ne.mpr h]
    rfl

/-- The first member counts if no other one does. -/
theorem optionality?_cons (m : ShapeMember) (rest : List ShapeMember) (name : String) :
    optionality? (m :: rest) name =
      (optionality? rest name).or (if m.name = name then some m.optional else none) := by
  rw [optionality?, optionality?, List.reverse_cons, List.find?_append, Option.map_or]
  by_cases h : m.name = name
  · rw [if_pos h, List.find?_cons, beq_iff_eq.mpr h]
    rfl
  · rw [if_neg h, List.find?_cons, beq_eq_false_iff_ne.mpr h]
    rfl

/-- Members that are kept by their names are listed as before. -/
theorem optionality?_filter (shape : List ShapeMember) (keep : String → Bool) (name : String) :
    optionality? (shape.filter fun m => keep m.name) name =
      if keep name then optionality? shape name else none := by
  rw [optionality?, optionality?, ← List.filter_reverse, List.find?_filter]
  cases hkeep : keep name with
  | true =>
      have hsame : (fun m : ShapeMember => decide (keep m.name = true ∧ (m.name == name) = true)) =
          fun m => m.name == name := by
        funext m
        by_cases hname : m.name = name <;> simp [hname, hkeep]
      rw [hsame]
      rfl
  | false =>
      have hnone : (fun m : ShapeMember => decide (keep m.name = true ∧ (m.name == name) = true)) =
          fun _ => false := by
        funext m
        by_cases hname : m.name = name <;> simp [hname, hkeep]
      rw [hnone, List.find?_eq_none.mpr (by simp)]
      rfl

/-- A member that is added is listed in the place of the one of its name. -/
theorem optionality?_addMember (shape : List ShapeMember) (m : ShapeMember) (name : String) :
    optionality? (addMember shape m) name =
      if m.name = name then some m.optional else optionality? shape name := by
  rw [addMember, optionality?_concat]
  by_cases h : m.name = name
  · rw [if_pos h, if_pos h]
  · rw [if_neg h, if_neg h, optionality?_filter shape (· != m.name) name,
      if_pos (bne_iff_ne.mpr (Ne.symm h))]

/-- After a merge a name is listed as by the merged members, or else as before. -/
theorem optionality?_mergeMembers (members : List ShapeMember) (name : String) :
    ∀ shape : List ShapeMember, optionality? (mergeMembers shape members) name =
      (optionality? members name).or (optionality? shape name) := by
  induction members with
  | nil => exact fun _ => rfl
  | cons m rest ih =>
      intro shape
      have hmerge : mergeMembers shape (m :: rest) = mergeMembers (addMember shape m) rest := rfl
      -- The first member counts behind the later ones and before the shape.
      rw [hmerge, ih, optionality?_addMember, optionality?_cons, Option.or_assoc]
      congr 1
      split <;> rfl

/-- A change acts on the optionality of each name. -/
theorem optionality?_change (keys : List String) (shape : List ShapeMember) (name : String) :
    ∀ change : ShapeChange, optionality? (change.apply keys shape) name =
      change.onOptionality keys name (optionality? shape name)
  | .setOptional optional => by
      rw [ShapeChange.apply, ShapeChange.onOptionality, optionality?, optionality?,
        ← List.map_reverse, List.find?_map, Option.map_map, Option.map_map]
      rfl
  | .keep => rfl
  | .pick => optionality?_filter shape keys.contains name
  | .omit => by
      rw [ShapeChange.apply, optionality?_filter shape (!keys.contains ·) name,
        ShapeChange.onOptionality]
      cases keys.contains name <;> rfl

section Passing

variable (w : Workspace) (e : Expander) (scope : Scope) (param name : String) (given : Option Bool)

mutual

/-- Whether a type lists a name, and whether as optional, where a type parameter in it lists the
    name as given. -/
def passed : TypeExpr → Option Bool
  | .paren type => passed type
  | .readonly type => passed type
  | .intersection members => passedMerge none members
  | .reference (.ident reference) [] =>
    if reference = param then given
    else optionality? (membersOf w e scope (.reference (.ident reference) [])) name
  | .reference (.ident reference) (first :: rest) =>
    match shapeChange? reference with
    | some change => change.onOptionality (keysArgument (first :: rest)) name (passed first)
    | none =>
        optionality? (membersOf w e scope (.reference (.ident reference) (first :: rest))) name
  | type => optionality? (membersOf w e scope type) name

/-- What several types make of a name, later ones over earlier ones. -/
def passedMerge (before : Option Bool) : List TypeExpr → Option Bool
  | [] => before
  | type :: rest => passedMerge ((passed type).or before) rest

end

end Passing

section Passing

variable {w : Workspace} {e : Expander} {scope : Scope} {param name : String}

mutual

/-- Filling a type acts on each name by itself. -/
theorem optionality?_filledMembers (given : List ShapeMember) : ∀ type : TypeExpr,
    optionality? (filledMembers w e scope param given type) name =
      passed w e scope param name (optionality? given name) type
  | .paren type | .readonly type => by
      rw [filledMembers, passed, optionality?_filledMembers given type]
  | .intersection members => by
      rw [filledMembers, passed, optionality?_filledMerge given members]
      rfl
  | .reference (.ident reference) [] => by
      rw [filledMembers, passed]
      split <;> rfl
  | .reference (.ident reference) (first :: rest) => by
      rw [filledMembers, passed]
      cases shapeChange? reference with
      | none => rfl
      | some change =>
          dsimp only
          rw [optionality?_change, optionality?_filledMembers given first]
  | .reference (.qualified _ _) _ | .keyword _ | .literal _ | .object _ | .array _ | .tuple _
  | .optional _ | .rest _ | .union _ | .keyof _ | .indexed _ _ | .mapped | .predicate
  | .function _ | .other => by
      rw [filledMembers, passed] <;> nofun

/-- Filling several types acts on each name by itself. -/
theorem optionality?_filledMerge (given : List ShapeMember) : ∀ (types : List TypeExpr)
    {shape : List ShapeMember}, optionality? (filledMerge w e scope param given shape types) name =
      passedMerge w e scope param name (optionality? given name) (optionality? shape name) types
  | [], _ => rfl
  | type :: rest, shape => by
      rw [filledMerge, passedMerge, optionality?_filledMerge given rest, optionality?_mergeMembers,
        optionality?_filledMembers given type]

end

end Passing

end Types

/-! ## Generic aliases -/

namespace Workspace

variable {w : Workspace} {scope : Scope} {name : String} {d : Declaration}
  {decl : Source.AliasDecl} {param : Source.TypeParam}

/-- The scope of a generic alias whose parameter stands for an argument. -/
def aliasScope (w : Workspace) (d : Declaration) (param : Source.TypeParam) (scope : Scope)
    (argument : TypeExpr) : Scope :=
  (Scope.ofFile d.file).bind param.name (w.schemaIn scope argument)

/-- The expander inside the expansion of one declaration. -/
def expanderInside (w : Workspace) (d : Declaration) : Expander :=
  expanderWithin w (w.typeCount + 1) [d.key]

/-- A reference to a generic alias has the members of its body. -/
theorem membersIn_alias (hplain : shapeChange? name = none)
    (hd : w.type? scope.file name = some d) (hnode : d.node = .aliasNode decl)
    (hparams : decl.params = [param]) (argument : TypeExpr) :
    w.membersIn scope (.reference (.ident name) [argument]) =
      membersOf w (w.expanderInside d) (w.aliasScope d param scope argument) decl.type.type := by
  -- Nothing is open at first, so the alias is expanded.
  have hexpand := (expander_hands_down_path (resolve?_declares hd) []).2.1
  rw [membersIn, membersOf, namedMembers, hplain]
  dsimp only
  rw [hd, declaredMembers]
  refine (hexpand _).trans ?_
  rw [if_neg (by simp), declarationMembers, hnode]
  dsimp only
  rw [hparams]
  rfl

/-- **Generic aliases as shapes**: a reference `G<A>` to an alias `type G<P> = B` has the members of
    `B` filled with the members that the name `P` has in the file of the alias, which are none
    unless the file declares or imports a type of this name, while the schema of `P` in `B` is that
    of `A`. The names and the optionality of the members are those of `B` filled with `A` exactly if
    `B` makes the same of each name, whether it is listed as by `P` in the file or as by `A`. -/
theorem generic_alias_keeps_members_iff (w : Workspace) (scope : Scope) (name : String)
    (d : Declaration) (decl : Source.AliasDecl) (param : Source.TypeParam)
    (hplain : shapeChange? name = none) (hd : w.type? scope.file name = some d)
    (hnode : d.node = .aliasNode decl) (hparams : decl.params = [param]) (argument : TypeExpr) :
    let e := w.expanderInside d
    let own := w.aliasScope d param scope argument
    let taken := membersOf w e own (.reference (.ident param.name) [])
    w.membersIn scope (.reference (.ident name) [argument]) =
        filledMembers w e own param.name taken decl.type.type ∧
      (w.type? d.file param.name = none → taken = []) ∧
      schemaOf w e.schema own (.reference (.ident param.name) []) = w.schemaIn scope argument ∧
      ((∀ n, optionality? (w.membersIn scope (.reference (.ident name) [argument])) n =
          optionality? (filledMembers w e own param.name (w.membersIn scope argument)
            decl.type.type) n) ↔
        ∀ n, passed w e own param.name n (optionality? taken n) decl.type.type =
          passed w e own param.name n (optionality? (w.membersIn scope argument) n)
            decl.type.type) := by
  intro e own taken
  have hmembers : w.membersIn scope (.reference (.ident name) [argument]) =
      filledMembers w e own param.name taken decl.type.type :=
    (membersIn_alias hplain hd hnode hparams argument).trans
      (membersOf_eq_filledMembers w e own param.name decl.type.type)
  refine ⟨hmembers, fun hnone => ?_, ?_, ?_⟩
  · show namedMembers w e own param.name [] = []
    rw [namedMembers]
    cases shapeChange? param.name with
    | some change => rfl
    | none =>
        dsimp only
        rw [show own.file = d.file from rfl, hnone]
        rfl
  · rw [schemaOf, show Dictionary.find? own.bindings param.name = some _ from
      Dictionary.find?_set_self _ _ _]
  · simp only [hmembers, optionality?_filledMembers]

/-! ## An argument that is lost -/

/-- The alias `type G<P> = P & { id: string }`. -/
def withIdAlias : Source.AliasDecl :=
  { start := ⟨0, 1⟩
    name := "G"
    params := [⟨"P", none, []⟩]
    type :=
      ⟨.intersection
        [ .reference (.ident "P") [],
          .object [.property ⟨20, 1⟩ (.ident "id" false) false (some (.keyword .string))] ], []⟩ }

/-- A module that declares this alias. -/
def withIdModule : ParsedFile :=
  { path := ⟨[.root, .name "shapes.ts"]⟩
    module := ⟨[.aliasDecl withIdAlias], []⟩
    discoverable := true }

/-- The file of that module. -/
def withIdFile : SourceFile :=
  Program.placed ⟨[.root]⟩ withIdModule 0

/-- The workspace of that file alone. -/
def withIdWorkspace : Workspace :=
  .ofProgram (.ofParsed ⟨[.root]⟩ [withIdModule]) {}

/-- The declaration of the alias. -/
def withIdDeclaration : Declaration :=
  ⟨"G", withIdFile, .aliasNode withIdAlias, [⟨0, 1⟩], ⟨0, 1⟩⟩

/-- The argument `{ name: string }`. -/
def nameShape : TypeExpr :=
  .object [.property ⟨50, 2⟩ (.ident "name" false) false (some (.keyword .string))]

/-- The members of `G<{ name: string }>` are not those of the body filled with its argument. -/
theorem alias_loses_argument :
    ¬∀ n, optionality? (withIdWorkspace.membersIn (.ofFile withIdFile)
          (.reference (.ident "G") [nameShape])) n =
        optionality? (filledMembers withIdWorkspace
          (withIdWorkspace.expanderInside withIdDeclaration)
          (withIdWorkspace.aliasScope withIdDeclaration ⟨"P", none, []⟩ (.ofFile withIdFile)
            nameShape)
          "P" (withIdWorkspace.membersIn (.ofFile withIdFile) nameShape)
          withIdAlias.type.type) n := by
  have hsymbols : withIdWorkspace.symbolsOf withIdFile = FileSymbols.ofFile withIdFile :=
    symbolsOf_placed _ _ _
  have htype : withIdWorkspace.type? withIdFile "G" = some withIdDeclaration := by
    rw [type?, resolve?, hsymbols]
    exact Option.or_eq_some_iff.mpr (Or.inl rfl)
  have hparam : withIdWorkspace.type? withIdFile "P" = none := by
    rw [type?, resolve?, hsymbols]
    rfl
  obtain ⟨-, htaken, -, hiff⟩ := generic_alias_keeps_members_iff withIdWorkspace
    (.ofFile withIdFile) "G" withIdDeclaration withIdAlias ⟨"P", none, []⟩ rfl htype rfl rfl
    nameShape
  intro hall
  have hname := hiff.mp hall "name"
  rw [htaken hparam] at hname
  cases hname

end Workspace

end ElementCatalog
