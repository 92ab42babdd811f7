import ElementCatalog.Types.Expansion
import Mathlib.Data.List.Nodup

/-!
# Merged shapes — what becomes of members when shapes are put together

A shape is merged member by member, and a later member makes room for itself.  So merging loses no
names, keeps the names apart, and keeps of an earlier shape what the later ones leave free.  The
shape of an interface is merged from what its clauses bring in and from its own members.
-/

namespace ElementCatalog.Types

open Source (Heritage InterfaceDecl)

/-! ## Members -/

/-- A member that is added makes room for itself. -/
theorem mem_addMember_iff {shape : List ShapeMember} {first m : ShapeMember} :
    m ∈ addMember shape first ↔ m = first ∨ m ∈ shape ∧ m.name ≠ first.name := by
  rw [addMember, List.mem_append, List.mem_filter, List.mem_singleton, bne_iff_ne, or_comm]

/-- Adding a member keeps the names apart. -/
theorem nodup_names_addMember {shape : List ShapeMember} (h : (shape.map (·.name)).Nodup)
    (first : ShapeMember) : ((addMember shape first).map (·.name)).Nodup := by
  rw [addMember, List.map_append, List.map_singleton]
  have hkept : (shape.filter (·.name != first.name)).map (·.name) |>.Nodup :=
    h.sublist (List.filter_sublist.map _)
  refine List.nodup_append.mpr ⟨hkept, List.nodup_singleton _, fun a ha b hb hab => ?_⟩
  obtain ⟨m, hm, heq⟩ := List.mem_map.mp ha
  have hname : m.name ≠ first.name := bne_iff_ne.mp (List.mem_filter.mp hm).2
  exact hname (heq.trans (hab.trans (List.mem_singleton.mp hb)))

/-- The members after a merge are the merged ones, and those whose names these leave free. -/
theorem mem_mergeMembers_iff {members : List ShapeMember} (h : (members.map (·.name)).Nodup)
    {m : ShapeMember} : ∀ {shape : List ShapeMember}, m ∈ mergeMembers shape members ↔
      m ∈ members ∨ m ∈ shape ∧ ∀ other ∈ members, m.name ≠ other.name := by
  induction members with
  | nil => simp [mergeMembers]
  | cons first rest ih =>
      intro shape
      obtain ⟨hfirst, hrest⟩ := List.nodup_cons.mp h
      have hnew : ∀ other ∈ rest, first.name ≠ other.name := fun other hother heq =>
        hfirst (List.mem_map.mpr ⟨other, hother, heq.symm⟩)
      show m ∈ mergeMembers (addMember shape first) rest ↔ _
      rw [ih hrest, mem_addMember_iff, List.mem_cons, List.forall_mem_cons]
      constructor
      · rintro (hm | ⟨rfl | ⟨hm, hname⟩, hothers⟩)
        · exact Or.inl (Or.inr hm)
        · exact Or.inl (Or.inl rfl)
        · exact Or.inr ⟨hm, hname, hothers⟩
      · rintro ((rfl | hm) | ⟨hm, hname, hothers⟩)
        · exact Or.inr ⟨Or.inl rfl, hnew⟩
        · exact Or.inl hm
        · exact Or.inr ⟨Or.inr ⟨hm, hname⟩, hothers⟩

/-- Merging keeps the names apart. -/
theorem nodup_names_mergeMembers (members : List ShapeMember) : ∀ {shape : List ShapeMember},
    (shape.map (·.name)).Nodup → ((mergeMembers shape members).map (·.name)).Nodup := by
  induction members with
  | nil => exact fun h => h
  | cons first rest ih => exact fun h => ih (nodup_names_addMember h first)

/-! ## Names -/

/-- The names of the members of a shape. -/
def memberNames (shape : List ShapeMember) : List String :=
  shape.map (·.name)

/-- Two shapes have members of the same names. -/
def SameNames (shape shape' : List ShapeMember) : Prop :=
  ∀ n, n ∈ memberNames shape ↔ n ∈ memberNames shape'

/-- Adding a member adds its name. -/
theorem mem_memberNames_addMember {shape : List ShapeMember} {member : ShapeMember} {n : String} :
    n ∈ memberNames (addMember shape member) ↔ n ∈ memberNames shape ∨ n = member.name := by
  simp only [memberNames, List.mem_map, mem_addMember_iff]
  constructor
  · rintro ⟨m, rfl | ⟨hm, -⟩, rfl⟩
    · exact Or.inr rfl
    · exact Or.inl ⟨m, hm, rfl⟩
  · rintro (⟨m, hm, rfl⟩ | rfl)
    · by_cases hname : m.name = member.name
      · exact ⟨member, Or.inl rfl, hname.symm⟩
      · exact ⟨m, Or.inr ⟨hm, hname⟩, rfl⟩
    · exact ⟨member, Or.inl rfl, rfl⟩

/-- Merging loses no names. -/
theorem mem_memberNames_mergeMembers {members : List ShapeMember} {n : String} :
    ∀ {shape : List ShapeMember}, n ∈ memberNames (mergeMembers shape members) ↔
      n ∈ memberNames shape ∨ n ∈ memberNames members := by
  induction members with
  | nil => exact fun {_} => ⟨Or.inl, fun h => h.resolve_right List.not_mem_nil⟩
  | cons first rest ih =>
      intro shape
      have hrest : n ∈ memberNames (mergeMembers shape (first :: rest)) ↔
          n ∈ memberNames (addMember shape first) ∨ n ∈ memberNames rest := ih
      rw [hrest, mem_memberNames_addMember, or_assoc]
      exact or_congr_right List.mem_cons.symm

/-- Merging several shapes loses no names. -/
theorem mem_memberNames_foldl {shapes : List (List ShapeMember)} {n : String} :
    ∀ {shape : List ShapeMember}, n ∈ memberNames (shapes.foldl mergeMembers shape) ↔
      n ∈ memberNames shape ∨ ∃ members ∈ shapes, n ∈ memberNames members := by
  induction shapes with
  | nil => exact fun {_} => ⟨Or.inl, fun h => h.resolve_right (by rintro ⟨_, hnil, -⟩; cases hnil)⟩
  | cons first rest ih =>
      intro shape
      rw [List.foldl_cons, ih, mem_memberNames_mergeMembers, or_assoc]
      refine or_congr_right ⟨?_, ?_⟩
      · rintro (h | ⟨members, hmem, h⟩)
        · exact ⟨first, List.mem_cons_self, h⟩
        · exact ⟨members, List.mem_cons_of_mem _ hmem, h⟩
      · rintro ⟨members, hmem, h⟩
        rcases List.mem_cons.mp hmem with rfl | htail
        · exact Or.inl h
        · exact Or.inr ⟨members, htail, h⟩

/-- A shape among others adds its names to theirs. -/
theorem mem_memberNames_foldl_insert {shape added : List ShapeMember}
    {before after : List (List ShapeMember)} {n : String} :
    n ∈ memberNames ((before ++ added :: after).foldl mergeMembers shape) ↔
      n ∈ memberNames added ∨ n ∈ memberNames ((before ++ after).foldl mergeMembers shape) := by
  simp only [List.foldl_append, List.foldl_cons, mem_memberNames_foldl,
    mem_memberNames_mergeMembers]
  exact (or_congr_left or_comm).trans or_assoc

/-- A further shape leaves the names as they are exactly if the others bring its names in. -/
theorem sameNames_foldl_insert_iff {shape added : List ShapeMember}
    {before after : List (List ShapeMember)} :
    SameNames ((before ++ after).foldl mergeMembers shape)
        ((before ++ added :: after).foldl mergeMembers shape) ↔
      ∀ n ∈ memberNames added, n ∈ memberNames ((before ++ after).foldl mergeMembers shape) := by
  constructor
  · exact fun h n hn => (h n).mpr (mem_memberNames_foldl_insert.mpr (Or.inl hn))
  · intro h n
    rw [mem_memberNames_foldl_insert]
    exact ⟨Or.inr, fun hn => hn.elim (h n) id⟩

/-! ## Interfaces -/

/-- The members that a clause brings into the shape of an interface or a class. -/
def clauseMembers (w : Workspace) (e : Expander) (scope : Scope) (parent : Heritage) :
    List ShapeMember :=
  match parent.name? with
  | some (.ident name) => namedMembers w e scope name (parent.args.map (·.type))
  | _ => []

/-- The shape of an interface is merged from its clauses and its own members. -/
theorem interfaceMembers_eq (w : Workspace) (e : Expander) (scope : Scope) (decl : InterfaceDecl) :
    interfaceMembers w e scope decl =
      (decl.parents.map (clauseMembers w e scope) ++ [ownMembers w e scope decl.members]).foldl
        mergeMembers [] := by
  rw [List.foldl_append]
  rfl

end ElementCatalog.Types
