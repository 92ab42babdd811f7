import ElementCatalog.Proofs.NormalUnions

/-!
# Unions keep their meaning and are reduced

Toward: the union of some schemas accepts what one of them accepts, however they are ordered,
repeated or nested, and it is reduced, and a union of itself, if they are reduced.  The route:

* a schema accepts what one of its leaves accepts, so only the set of the leaves counts;
* merging keeps reduced schemas reduced;
* alternatives that differ are added one after another without loss, and what could be merged was
  merged before, so a second union changes nothing.
-/

namespace ElementCatalog

/-! ## Leaves -/

mutual

/-- A schema accepts what one of its leaves accepts. -/
theorem Schema.someAccepts_leaves {v : Json} : ∀ schema : Schema,
    someAccepts schema.leaves v = true ↔ schema.accepts v = true
  | .alternatives members => by
      rw [Schema.leaves, Schema.accepts]
      exact someAccepts_leavesOfAll members
  | .primitive _ _ | .multiType _ | .enumeration _ _ | .object _ | .array _ | .unconstrained => by
      rw [Schema.leaves, someAccepts, someAccepts, Bool.or_false]
      all_goals nofun
termination_by structural schema => schema

/-- One of several schemas accepts what one of their leaves accepts. -/
theorem someAccepts_leavesOfAll {v : Json} : ∀ members : List Schema,
    someAccepts (leavesOfAll members) v = true ↔ someAccepts members v = true
  | [] => Iff.rfl
  | schema :: rest => by
      rw [leavesOfAll, someAccepts_append, Schema.someAccepts_leaves schema,
        someAccepts_leavesOfAll rest, someAccepts, Bool.or_eq_true]
termination_by structural members => members

end

/-- Schemas with the same leaves accept the same. -/
theorem someAccepts_of_leaves {members others : List Schema} {v : Json}
    (h : ∀ leaf, leaf ∈ leavesOfAll others ↔ leaf ∈ leavesOfAll members) :
    someAccepts others v = true ↔ someAccepts members v = true := by
  rw [← someAccepts_leavesOfAll others, ← someAccepts_leavesOfAll members, someAccepts_iff,
    someAccepts_iff]
  simp only [h]

namespace Schema

/-! ## Members that are left -/

/-- After a schema is added there are some. -/
theorem addNew_ne_nil (found : List Schema) (schema : Schema) : addNew found schema ≠ [] := by
  rw [addNew]
  split
  · rename_i hany
    obtain ⟨old, hold, -⟩ := List.any_eq_true.mp hany
    exact List.ne_nil_of_mem hold
  · exact List.append_ne_nil_of_right_ne_nil _ (List.cons_ne_nil _ _)

/-- If there are schemas already, or one that is more than empty alternatives, some are left. -/
theorem distinctMembers?_ne_nil {members : List Schema} : ∀ {found : List Schema},
    (found ≠ [] ∨ ∃ member ∈ members, member ≠ .alternatives []) →
      distinctMembers? found members ≠ some [] := by
  induction members with
  | nil =>
      rintro found (hfound | ⟨member, hmember, -⟩) heq
      · exact hfound (Option.some.inj heq)
      · exact absurd hmember List.not_mem_nil
  | cons first rest ih =>
      intro found h
      cases first with
      | alternatives nested =>
          refine ih ?_
          cases nested with
          | nil =>
              rcases h with hfound | ⟨member, hmember, hne⟩
              · exact Or.inl hfound
              · exact Or.inr ⟨member, (List.mem_cons.mp hmember).resolve_left hne, hne⟩
          | cons schema others =>
              exact Or.inl (foldl_ne_nil addNew_ne_nil (List.cons_ne_nil schema others) found)
      | unconstrained => nofun
      | _ => exact ih (Or.inl (addNew_ne_nil found _))

/-! ## Reduced unions -/

/-- The union of reduced schemas is reduced. -/
theorem union_reduced {members : List Schema} (hreduced : ∀ member ∈ members, member.Reduced) :
    (union members).Reduced := by
  refine union_keeps opens_reduced hreduced .unconstrained (.primitive .null false) ?_ ?_ ?_
  · intro distinct merged _ hmerged
    cases distinct with
    | nil => cases hmerged
    | cons first rest =>
        cases first with
        | enumeration kind values =>
            obtain ⟨lists, -, heq⟩ := Option.map_eq_some_iff.mp hmerged
            rw [← heq]
            exact .enumeration (LiteralsDiffer.foldl_addLiteral lists.flatten .nil)
        | _ => cases hmerged
  · intro distinct merged hne hall hmerged
    rcases mergeKinds?_cases hne hall hmerged with ⟨kind, rfl⟩ | ⟨kinds, rfl, htwo, hdistinct⟩
    · exact .primitive kind false
    · exact .multiType htwo hdistinct
  · exact fun htwo hseparate hkinds hbare =>
      .alternatives htwo hseparate.distinct hseparate.flat hkinds hbare hseparate.all

/-! ## A second union -/

/-- Schemas of which no two are equal are all added. -/
theorem foldl_addNew_eq_append {added : List Schema} : ∀ found : List Schema,
    (found ++ added).Pairwise Differs → added.foldl addNew found = found ++ added := by
  induction added with
  | nil => exact fun _ _ => (List.append_nil _).symm
  | cons schema rest ih =>
      intro found h
      have hnew : found.any (·.same schema) = false := by
        rw [List.any_eq_false]
        intro member hmember
        have hdiffers := (List.pairwise_append.mp h).2.2 member hmember schema List.mem_cons_self
        exact Bool.eq_false_iff.mp hdiffers.1
      have hadded : addNew found schema = found ++ [schema] := by
        rw [addNew, hnew]
        rfl
      rw [List.append_cons] at h
      rw [List.foldl_cons, hadded, ih _ h, ← List.append_cons]

/-- Enumerations are not merged if they are not all of one kind. -/
theorem mergeEnumerations?_eq_none {members : List Schema}
    (h : ∀ kind, ∃ member ∈ members, member.isEnumerationOf kind = false) :
    mergeEnumerations? members = none := by
  rw [Option.eq_none_iff_forall_ne_some]
  intro merged hmerged
  cases members with
  | nil => cases hmerged
  | cons first rest =>
      cases first with
      | enumeration kind values =>
          obtain ⟨lists, hlists, -⟩ := Option.map_eq_some_iff.mp hmerged
          obtain ⟨member, hmember, hother⟩ := h kind
          obtain ⟨literals, -, hliterals⟩ := exists_result_of_mapM hlists hmember
          cases member with
          | enumeration kind' values' =>
              rw [literalsOf?, if_neg (by simpa [isEnumerationOf] using hother)] at hliterals
              cases hliterals
          | _ => cases hliterals
      | _ => cases hmerged

/-- Kinds are not merged if not all schemas are bare. -/
theorem mergeKinds?_eq_none {members : List Schema}
    (h : ∃ member ∈ members, member.isBare = false) : mergeKinds? members = none := by
  rw [Option.eq_none_iff_forall_ne_some]
  intro merged hmerged
  obtain ⟨lists, hlists, -⟩ := Option.map_eq_some_iff.mp hmerged
  obtain ⟨member, hmember, hother⟩ := h
  obtain ⟨kinds, -, hkinds⟩ := exists_result_of_mapM hlists hmember
  cases member with
  | primitive kind dateTime =>
      cases dateTime with
      | true => cases hkinds
      | false => cases hother
  | multiType => cases hother
  | _ => cases hkinds

/-- A reduced schema is the union of itself. -/
theorem Reduced.union_singleton {schema : Schema} (h : schema.Reduced) :
    union [schema] = schema := by
  cases h with
  | @alternatives members htwo hdistinct _ hkinds hbare _ =>
      have hmembers : distinctMembers? [] [.alternatives members] = some members := by
        rw [distinctMembers?, distinctMembers?, foldl_addNew_eq_append [] hdistinct]
        rfl
      rw [union, hmembers]
      cases members with
      | nil => cases htwo
      | cons first rest =>
          cases rest with
          | nil => exact absurd htwo (Nat.not_succ_le_self 1)
          | cons second others =>
              dsimp only
              rw [mergeEnumerations?_eq_none hkinds, mergeKinds?_eq_none hbare]
  | _ => rfl

/-- **Unions**: the union of schemas, one of which is more than empty alternatives, accepts exactly
    what one of them accepts; so it accepts the same for schemas with the same leaves, in any order,
    repeated and nested in any way.  The union of reduced schemas is reduced, and it is the union of
    itself. -/
theorem union_keeps_meaning_and_reduces (members : List Schema)
    (hsome : ∃ member ∈ members, member ≠ .alternatives []) :
    (∀ v, (union members).accepts v = true ↔ ∃ member ∈ members, member.accepts v = true) ∧
    (∀ others : List Schema, (∃ member ∈ others, member ≠ .alternatives []) →
      (∀ leaf, leaf ∈ leavesOfAll others ↔ leaf ∈ leavesOfAll members) →
        ∀ v, (union others).accepts v = (union members).accepts v) ∧
    ((∀ member ∈ members, member.Reduced) →
      (union members).Reduced ∧ union [union members] = union members) := by
  refine ⟨fun v => ?_, fun others hothers hleaves v => ?_, fun hreduced => ?_⟩
  · rw [union_accepts_iff (distinctMembers?_ne_nil (Or.inr hsome)), someAccepts_iff]
  · rw [Bool.eq_iff_iff, union_accepts_iff (distinctMembers?_ne_nil (Or.inr hothers)),
      union_accepts_iff (distinctMembers?_ne_nil (Or.inr hsome))]
    exact someAccepts_of_leaves hleaves
  · have hunion := union_reduced hreduced
    exact ⟨hunion, hunion.union_singleton⟩

/-! ## A nested union -/

/-- The members of `('red' | number) | ('blue' | 'red') | 'red'`. -/
def paints : List Schema :=
  [ .alternatives [.literal (.string "red"), .number],
    .enumeration .string [.string "blue", .string "red"], .literal (.string "red") ]

/-- The same members, unnested, once each and in another order. -/
def sortedPaints : List Schema :=
  [.number, .enumeration .string [.string "blue", .string "red"], .literal (.string "red")]

/-- One literal is reduced. -/
theorem literal_reduced (value : Literal) : (Schema.literal value).Reduced :=
  .enumeration (List.pairwise_singleton _ _)

/-- The members of that union are reduced. -/
theorem paints_reduced : ∀ member ∈ paints, member.Reduced := by
  have hred : (Schema.literal (.string "red")).Reduced := literal_reduced _
  have hnumber : Schema.number.Reduced := .primitive .number false
  refine List.forall_mem_cons.mpr ⟨?_, List.forall_mem_cons.mpr ⟨?_,
    List.forall_mem_singleton.mpr hred⟩⟩
  · refine .alternatives (Nat.le_refl 2) ?_ ?_ ?_ ⟨_, List.mem_cons_self, rfl⟩ ?_
    · exact List.pairwise_pair.mpr ⟨rfl, rfl⟩
    · exact List.forall_mem_cons.mpr ⟨rfl, List.forall_mem_singleton.mpr rfl⟩
    · exact fun kind => ⟨.number, by simp, rfl⟩
    · exact List.forall_mem_cons.mpr ⟨hred, List.forall_mem_singleton.mpr hnumber⟩
  · exact .enumeration (List.pairwise_pair.mpr ⟨rfl, rfl⟩)

/-- The union of these members accepts what a member accepts, also without nesting and repetition;
    it is reduced and the union of itself. -/
theorem paints_kept_and_reduced :
    (∃ member ∈ paints, member ≠ .alternatives []) ∧
    (∃ member ∈ sortedPaints, member ≠ .alternatives []) ∧
    (∀ leaf, leaf ∈ leavesOfAll sortedPaints ↔ leaf ∈ leavesOfAll paints) ∧
    (∀ v, (union paints).accepts v = true ↔ ∃ member ∈ paints, member.accepts v = true) ∧
    (∀ v, (union sortedPaints).accepts v = (union paints).accepts v) ∧
    (union paints).Reduced ∧ union [union paints] = union paints := by
  have hpaints : ∃ member ∈ paints, member ≠ .alternatives [] :=
    ⟨.literal (.string "red"), by simp [paints], nofun⟩
  have hsorted : ∃ member ∈ sortedPaints, member ≠ .alternatives [] :=
    ⟨.number, List.mem_cons_self, nofun⟩
  have hleaves : ∀ leaf, leaf ∈ leavesOfAll sortedPaints ↔ leaf ∈ leavesOfAll paints := by
    intro leaf
    simp only [sortedPaints, paints, leavesOfAll, leaves, literal, number, List.mem_append,
      List.mem_singleton, List.not_mem_nil, or_false]
    grind
  obtain ⟨hmeaning, hothers, hreduces⟩ := union_keeps_meaning_and_reduces paints hpaints
  exact ⟨hpaints, hsorted, hleaves, hmeaning, hothers sortedPaints hsorted hleaves,
    hreduces paints_reduced⟩

end Schema

end ElementCatalog
