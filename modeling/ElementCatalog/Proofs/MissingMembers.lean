import ElementCatalog.Proofs.AliasReadings

/-!
# Members of unions that stand for a missing value

A union leaves out the members that are written as `undefined` or `void`.  A type may come to a
missing value in other ways too: in parentheses, as a union of such types, by an alias or by a type
parameter.  Such a type is read to null, and as a member of a union it is not left out.  Toward: what
a union is with and without such a member, and exactly when it accepts the same.
-/

namespace ElementCatalog

open Source (TypeExpr)
open ElementCatalog.Types

/-! ## Null in unions -/

namespace Schema

/-- Null may be repeated. -/
theorem distinctMembers?_null {members : List Schema} (h : ∀ member ∈ members, member = .null) :
    distinctMembers? [.null] members = some [.null] := by
  induction members with
  | nil => rfl
  | cons first rest ih =>
      rw [h first List.mem_cons_self]
      exact ih fun member hmember => h member (List.mem_cons_of_mem _ hmember)

/-- A union of nothing but null is null. -/
theorem union_null {members : List Schema} (h : ∀ member ∈ members, member = .null) :
    union members = .null := by
  cases members with
  | nil => rfl
  | cons first rest =>
      have hrest := distinctMembers?_null fun member hmember =>
        h member (List.mem_cons_of_mem _ hmember)
      have hdistinct : distinctMembers? [] (first :: rest) = some [.null] := by
        rw [h first List.mem_cons_self]
        exact hrest
      rw [union, hdistinct]

/-- A union with null among its members accepts null and what it accepts without. -/
theorem union_insert_null_accepts {before after : List Schema} {v : Json} :
    (union (before ++ .null :: after)).accepts v = true ↔
      v = .null ∨ (union (before ++ after)).accepts v = true := by
  by_cases hv : v = .null
  · have hnull : someAccepts (before ++ .null :: after) v = true :=
      someAccepts_append.mpr (Or.inr (Bool.or_eq_true_iff.mpr (Or.inl (accepts_null_iff.mpr hv))))
    exact iff_of_true (union_accepts hnull) (Or.inl hv)
  · -- Null accepts nothing else, so apart from null its place does not matter.
    rw [union_accepts_iff_of_ne_null hv, union_accepts_iff_of_ne_null hv, someAccepts_append,
      someAccepts_append, someAccepts, Bool.or_eq_true, accepts_null_iff]
    exact or_left_comm

end Schema

/-! ## Missing values -/

namespace Workspace

/-- A type that is read in a scope stands for nothing but a missing value. -/
inductive StandsForMissing (w : Workspace) : Scope → TypeExpr → Prop where
  | keyword {scope type} (h : isUndefined type = true) : StandsForMissing w scope type
  | paren {scope type} (h : StandsForMissing w scope type) : StandsForMissing w scope (.paren type)
  | union {scope members} (hne : members ≠ [])
    (hmembers : ∀ member ∈ members, StandsForMissing w scope member) :
    StandsForMissing w scope (.union members)
  | aliasReference {scope name args d decl} (hrefers : w.RefersToAlias scope name d decl)
    (h : StandsForMissing w (w.boundScope [] d args scope) decl.type.type) :
    StandsForMissing w scope (.reference (.ident name) args)
  /-- A type parameter that is bound to a type which was read in another scope. -/
  | parameter {scope outer name args argument}
    (hbound : Dictionary.find? scope.bindings name = some (w.schemaIn outer argument))
    (h : StandsForMissing w outer argument) :
    StandsForMissing w scope (.reference (.ident name) args)

variable {w : Workspace} {scope : Scope} {type : TypeExpr}

/-- A missing value is read to null. -/
theorem StandsForMissing.schemaIn_eq (h : w.StandsForMissing scope type) :
    w.schemaIn scope type = .null := by
  induction h with
  | @keyword scope type h =>
      cases type with
      | keyword keyword =>
          cases keyword with
          | undefined | void => rw [schemaIn, schemaOf, keywordSchema]
          | _ => cases h
      | _ => cases h
  | paren _ ih =>
      rw [schemaIn, schemaOf]
      exact ih
  | union _ _ ih =>
      rw [schemaIn, schemaOf, definedSchemasOf_eq_map]
      refine Schema.union_null fun schema hschema => ?_
      obtain ⟨member, hmember, rfl⟩ := List.mem_map.mp hschema
      exact ih member (List.mem_filter.mp hmember).1
  | aliasReference hrefers _ ih => rw [schemaIn_aliasReference hrefers, ih]
  | parameter hbound _ ih => rw [schemaIn, schemaOf_bound hbound, ih]

/-- **Missing members**: a union with a member that stands for nothing but a missing value is the
    union without it if the member is written as a keyword. In any other spelling null stands in its
    place. So, whatever else is in the union, it accepts the same with and without the member exactly
    if this is a keyword or the rest accepts null. -/
theorem missing_members_dropped_iff (w : Workspace) (scope : Scope) (before after : List TypeExpr)
    (type : TypeExpr) (h : w.StandsForMissing scope type) :
    let defined := definedSchemasOf w w.expander.schema scope
    let union := w.schemaIn scope (.union (before ++ type :: after))
    let rest := w.schemaIn scope (.union (before ++ after))
    (isUndefined type = true → union = rest) ∧
    (isUndefined type = false → union = Schema.union (defined before ++ .null :: defined after)) ∧
    rest = Schema.union (defined before ++ defined after) ∧
    ((∀ v, union.accepts v = rest.accepts v) ↔
      isUndefined type = true ∨ rest.accepts .null = true) := by
  intro defined union rest
  have hrest : rest = Schema.union (defined before ++ defined after) := by
    show w.schemaIn scope _ = _
    rw [schemaIn, schemaOf]
    simp only [defined, definedSchemasOf_eq_map, List.filter_append, List.map_append]
  have hkeyword : isUndefined type = true → union = rest := by
    intro hundefined
    show w.schemaIn scope _ = w.schemaIn scope _
    rw [schemaIn, schemaIn, schemaOf, schemaOf]
    simp only [definedSchemasOf_eq_map, List.filter_append, List.filter_cons, hundefined,
      Bool.not_true, Bool.false_eq_true, if_false]
  have hother : isUndefined type = false →
      union = Schema.union (defined before ++ .null :: defined after) := by
    intro hdefined
    show w.schemaIn scope _ = _
    rw [schemaIn, schemaOf, definedSchemasOf_insert _ before after hdefined]
    exact congrArg (fun schema => Schema.union (defined before ++ schema :: defined after))
      h.schemaIn_eq
  refine ⟨hkeyword, hother, hrest, fun hsame => ?_, ?_⟩
  · cases hundefined : isUndefined type with
    | true => exact Or.inl rfl
    | false =>
        refine Or.inr ((hsame .null).symm.trans ?_)
        rw [hother hundefined]
        exact Schema.union_insert_null_accepts.mpr (Or.inl rfl)
  · rintro (hundefined | hnull) v
    · rw [hkeyword hundefined]
    · cases hundefined : isUndefined type with
      | true => rw [hkeyword hundefined]
      | false =>
          rw [Bool.eq_iff_iff, hother hundefined, Schema.union_insert_null_accepts, ← hrest]
          refine ⟨?_, Or.inr⟩
          rintro (rfl | hv)
          · exact hnull
          · exact hv

/-! ## A text that may be missing -/

/-- The alias `type Missing = undefined | void`. -/
def missingAlias : Source.AliasDecl :=
  ⟨⟨0, 1⟩, "Missing", [], ⟨.union [.keyword .undefined, .keyword .void], []⟩⟩

/-- A module that declares it. -/
def missingModule : ParsedFile :=
  { path := ⟨[.root, .name "missing.ts"]⟩
    module := ⟨[.aliasDecl missingAlias], []⟩
    discoverable := true }

/-- The file of that module. -/
def missingFile : SourceFile :=
  Program.placed ⟨[.root]⟩ missingModule 0

/-- The workspace of that file alone. -/
def missingWorkspace : Workspace :=
  .ofProgram (.ofParsed ⟨[.root]⟩ [missingModule]) {}

/-- The name refers to the alias. -/
theorem missing_refersToAlias :
    missingWorkspace.RefersToAlias (.ofFile missingFile) "Missing"
      ⟨"Missing", missingFile, .aliasNode missingAlias, [⟨0, 1⟩], ⟨0, 1⟩⟩ missingAlias where
  unbound := rfl
  plain := rfl
  declared := type?_placed _ _ _ rfl
  node := rfl
  notRecursive := not_recursive_of_references_nil rfl

/-- The alias stands for a missing value, but a text or the alias also accepts null, which a text
    does not. -/
theorem missing_alias_kept :
    missingWorkspace.StandsForMissing (.ofFile missingFile) (.reference (.ident "Missing") []) ∧
      ¬∀ v, (missingWorkspace.schemaIn (.ofFile missingFile)
            (.union [.keyword .string, .reference (.ident "Missing") []])).accepts v =
          (missingWorkspace.schemaIn (.ofFile missingFile) (.union [.keyword .string])).accepts
            v := by
  have hmissing : missingWorkspace.StandsForMissing (.ofFile missingFile)
      (.reference (.ident "Missing") []) := by
    refine .aliasReference missing_refersToAlias (.union (List.cons_ne_nil _ _) ?_)
    intro member hmember
    rcases List.mem_cons.mp hmember with rfl | hmember
    · exact .keyword rfl
    · rw [List.mem_singleton.mp hmember]
      exact .keyword rfl
  refine ⟨hmissing, fun hsame => ?_⟩
  obtain ⟨-, -, -, hiff⟩ := missing_members_dropped_iff missingWorkspace (.ofFile missingFile)
    [.keyword .string] [] _ hmissing
  rcases hiff.mp hsame with hkeyword | hnull
  · cases hkeyword
  · cases hnull

end Workspace

end ElementCatalog
