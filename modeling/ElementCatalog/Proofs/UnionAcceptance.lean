import ElementCatalog.Proofs.DeclaredNames
import ElementCatalog.Schema.Acceptance
import ElementCatalog.Schema.Union
import Mathlib

/-!
# Unions accept what their members accept

Toward: the schema of a union accepts a value exactly if the schema of a member does, however the
members are opened, dropped as repetitions, and merged.  The route:

* equal literals hold the same values;
* a schema accepts whatever an equal one accepts, so a repetition may be dropped;
* every step of the union keeps the values that some member accepts.
-/

namespace ElementCatalog

/-! ## Equal literals -/

namespace Literal

/-- Equality of literals goes both ways. -/
theorem same_symm {a b : Literal} (h : a.same b = true) : b.same a = true := by
  cases a with
  | string s =>
      cases b with
      | string t => exact beq_iff_eq.mpr (beq_iff_eq.mp h).symm
      | _ => exact nomatch h
  | number x =>
      cases b with
      | number y =>
          have hxy : (x == y) = true := h
          exact BEq.symm hxy
      | _ => exact nomatch h
  | boolean x =>
      cases b with
      | boolean y => exact beq_iff_eq.mpr (beq_iff_eq.mp h).symm
      | _ => exact nomatch h

/-- Equality of literals goes on. -/
theorem same_trans {a b c : Literal} (hab : a.same b = true) (hbc : b.same c = true) :
    a.same c = true := by
  cases a with
  | string s =>
      cases b with
      | string t =>
          have heq : s = t := beq_iff_eq.mp hab
          rw [heq]
          exact hbc
      | _ => exact nomatch hab
  | number x =>
      cases b with
      | number y =>
          cases c with
          | number z =>
              have hxy : (x == y) = true := hab
              have hyz : (y == z) = true := hbc
              exact BEq.trans hxy hyz
          | _ => exact nomatch hbc
      | _ => exact nomatch hab
  | boolean x =>
      cases b with
      | boolean y =>
          have heq : x = y := beq_iff_eq.mp hab
          rw [heq]
          exact hbc
      | _ => exact nomatch hab

/-- A value that is a literal is every equal one. -/
theorem holds_of_same {a b : Literal} (h : a.same b = true) {v : Json} (hb : b.holds v = true) :
    a.holds v = true := by
  rw [holds] at hb ⊢
  cases hv : v.literal? with
  | none =>
      rw [hv] at hb
      exact absurd hb Bool.false_ne_true
  | some literal =>
      rw [hv] at hb
      exact same_trans hb (same_symm h)

end Literal

/-- Equal lists of literals hold the same values. -/
theorem any_holds_of_sameLiterals {as bs : List Literal} (h : sameLiterals as bs = true) {v : Json}
    (hb : bs.any (·.holds v) = true) : as.any (·.holds v) = true := by
  induction as generalizing bs with
  | nil =>
      cases bs with
      | nil => exact hb
      | cons => exact nomatch h
  | cons a rest ih =>
      cases bs with
      | nil => exact nomatch h
      | cons b others =>
          obtain ⟨hfirst, hrest⟩ := Bool.and_eq_true_iff.mp h
          rw [List.any_cons, Bool.or_eq_true] at hb ⊢
          rcases hb with hb | hb
          · exact Or.inl (Literal.holds_of_same hfirst hb)
          · exact Or.inr (ih hrest hb)

/-! ## Equal schemas -/

mutual

/-- A schema accepts what an equal schema accepts. -/
theorem Schema.accepts_of_same : ∀ {a b : Schema}, a.same b = true → ∀ {v : Json},
    b.accepts v = true → a.accepts v = true
  | .primitive kind dateTime, b, h, v, hb => by
      cases b with
      | primitive kind' dateTime' =>
          rw [Schema.same] at h
          obtain ⟨hkind, -⟩ := Bool.and_eq_true_iff.mp h
          rw [Schema.accepts, beq_iff_eq.mp hkind]
          exact hb
      | _ => simp only [Schema.same, Bool.false_eq_true] at h
  | .multiType kinds, b, h, v, hb => by
      cases b with
      | multiType kinds' =>
          rw [Schema.same] at h
          have hkinds : kinds = kinds' := beq_iff_eq.mp h
          rw [hkinds]
          exact hb
      | _ => simp only [Schema.same, Bool.false_eq_true] at h
  | .enumeration kind values, b, h, v, hb => by
      cases b with
      | enumeration kind' values' =>
          rw [Schema.same] at h
          obtain ⟨hkind, hvalues⟩ := Bool.and_eq_true_iff.mp h
          obtain ⟨hholds, hany⟩ := Bool.and_eq_true_iff.mp hb
          rw [Schema.accepts, beq_iff_eq.mp hkind, hholds, any_holds_of_sameLiterals hvalues hany]
          rfl
      | _ => simp only [Schema.same, Bool.false_eq_true] at h
  | .object shape, b, h, v, hb => by
      cases b with
      | object shape' =>
          rw [Schema.same] at h
          obtain ⟨fields, hv, hfields⟩ := Schema.accepts_object.mp hb
          exact Schema.accepts_object.mpr
            ⟨fields, hv, ObjectSchema.accepts_of_same h hfields⟩
      | _ => simp only [Schema.same, Bool.false_eq_true] at h
  | .array items, b, h, v, hb => by
      cases b with
      | array items' =>
          rw [Schema.same] at h
          cases v with
          | array values =>
              rw [Schema.accepts_array] at hb ⊢
              exact fun value hvalue => Schema.accepts_of_same h (hb value hvalue)
          | _ => simp only [Schema.accepts, Bool.false_eq_true] at hb
      | _ => simp only [Schema.same, Bool.false_eq_true] at h
  | .alternatives members, b, h, v, hb => by
      cases b with
      | alternatives members' =>
          rw [Schema.same] at h
          exact someAccepts_of_same h hb
      | _ => simp only [Schema.same, Bool.false_eq_true] at h
  | .unconstrained, _, _, _, _ => rfl
termination_by structural a => a

/-- An object schema accepts what an equal one accepts. -/
theorem ObjectSchema.accepts_of_same : ∀ {a b : ObjectSchema}, a.same b = true →
    ∀ {fields : List (String × Json)}, b.accepts fields = true → a.accepts fields = true
  | ⟨properties, required⟩, b, h, fields, hb => by
      rw [ObjectSchema.same] at h
      obtain ⟨hproperties, hrequired⟩ := Bool.and_eq_true_iff.mp h
      obtain ⟨-, hproperties⟩ := Bool.and_eq_true_iff.mp hproperties
      obtain ⟨hpresent, haccept⟩ := ObjectSchema.accepts_iff.mp hb
      refine ObjectSchema.accepts_iff.mpr ⟨?_, ?_⟩
      · rw [show required = b.required from beq_iff_eq.mp hrequired]
        exact hpresent
      · exact propertiesAccept_iff.mp (propertiesAccept_of_same hproperties haccept)
termination_by structural a => a

/-- Properties that are found in another object with equal schemas accept what that one accepts. -/
theorem propertiesAccept_of_same {others : List (String × Schema)} :
    ∀ {properties : List (String × Schema)}, samePropertiesIn others properties = true →
      ∀ {fields : List (String × Json)},
        (∀ p ∈ others, ∀ v, Dictionary.find? fields p.1 = some v → p.2.accepts v = true) →
          propertiesAccept properties fields = true
  | [], _, _, _ => rfl
  | (name, schema) :: rest, h, fields, hothers => by
      rw [samePropertiesIn] at h
      obtain ⟨hfirst, hrest⟩ := Bool.and_eq_true_iff.mp h
      refine Bool.and_eq_true_iff.mpr ⟨?_, propertiesAccept_of_same hrest hothers⟩
      cases hfound : Dictionary.find? others name with
      | none =>
          rw [hfound] at hfirst
          exact absurd hfirst Bool.false_ne_true
      | some schema' =>
          rw [hfound] at hfirst
          refine (Option.all_eq_true _ _).mpr fun v hv => ?_
          exact Schema.accepts_of_same hfirst (hothers _ (Dictionary.mem_of_find? hfound) v hv)
termination_by structural properties => properties

/-- Some of several schemas accepts what some of equal ones accepts. -/
theorem someAccepts_of_same : ∀ {as bs : List Schema}, sameMembers as bs = true → ∀ {v : Json},
    someAccepts bs v = true → someAccepts as v = true
  | [], [], _, _, hb => hb
  | [], _ :: _, h, _, _ => by simp [sameMembers] at h
  | _ :: _, [], h, _, _ => by simp [sameMembers] at h
  | a :: rest, b :: others, h, v, hb => by
      rw [sameMembers] at h
      obtain ⟨hfirst, hrest⟩ := Bool.and_eq_true_iff.mp h
      refine Bool.or_eq_true_iff.mpr ?_
      rcases Bool.or_eq_true_iff.mp hb with hb | hb
      · exact Or.inl (Schema.accepts_of_same hfirst hb)
      · exact Or.inr (someAccepts_of_same hrest hb)
termination_by structural as => as

end

/-! ## The members of a union -/

/-- Of two lists of schemas one accepts a value. -/
theorem someAccepts_append {as bs : List Schema} {v : Json} :
    someAccepts (as ++ bs) v = true ↔ someAccepts as v = true ∨ someAccepts bs v = true := by
  induction as with
  | nil => simp [someAccepts]
  | cons a rest ih => simp [someAccepts, ih, or_assoc]

namespace Schema

/-- Adding a schema adds what it accepts, and nothing is lost if an equal one is there. -/
theorem someAccepts_addNew {found : List Schema} {schema : Schema} {v : Json} :
    someAccepts (addNew found schema) v = true ↔
      someAccepts found v = true ∨ schema.accepts v = true := by
  rw [addNew]
  split
  · rename_i hany
    obtain ⟨old, hold, hsame⟩ := List.any_eq_true.mp hany
    refine ⟨Or.inl, ?_⟩
    rintro (hfound | hschema)
    · exact hfound
    · exact someAccepts_iff.mpr ⟨old, hold, accepts_of_same hsame hschema⟩
  · rw [someAccepts_append]
    simp [someAccepts]

/-- Adding schemas one after another adds what they accept. -/
theorem someAccepts_foldl_addNew {found added : List Schema} {v : Json} :
    someAccepts (added.foldl addNew found) v = true ↔
      someAccepts found v = true ∨ someAccepts added v = true := by
  induction added generalizing found with
  | nil => simp [someAccepts]
  | cons schema rest ih =>
      rw [List.foldl_cons, ih, someAccepts_addNew, someAccepts, Bool.or_eq_true, or_assoc]

/-- The distinct members accept what the members accept. -/
theorem someAccepts_distinctMembers? {members : List Schema} {v : Json} :
    ∀ {found distinct : List Schema}, distinctMembers? found members = some distinct →
      (someAccepts distinct v = true ↔
        someAccepts found v = true ∨ someAccepts members v = true) := by
  induction members with
  | nil =>
      intro found distinct h
      cases h
      simp [someAccepts]
  | cons member rest ih =>
      intro found distinct h
      rw [someAccepts, Bool.or_eq_true, ← or_assoc]
      cases member with
      | alternatives nested =>
          rw [ih h, someAccepts_foldl_addNew, accepts]
      | unconstrained => cases h
      | _ => rw [ih h, someAccepts_addNew]

/-- If there is no list of distinct members, one member allows everything. -/
theorem someAccepts_of_distinctMembers?_none {members : List Schema} {v : Json} :
    ∀ {found : List Schema}, distinctMembers? found members = none →
      someAccepts members v = true := by
  induction members with
  | nil =>
      intro found h
      cases h
  | cons member rest ih =>
      intro found h
      rw [someAccepts, Bool.or_eq_true]
      cases member with
      | unconstrained => exact Or.inl rfl
      | _ => exact Or.inr (ih h)

/-! ## Merged enumerations -/

/-- Adding a literal adds the values that it holds. -/
theorem any_holds_addLiteral {values : List Literal} {value : Literal} {v : Json} :
    (addLiteral values value).any (·.holds v) = true ↔
      values.any (·.holds v) = true ∨ value.holds v = true := by
  rw [addLiteral]
  split
  · rename_i hany
    obtain ⟨old, hold, hsame⟩ := List.any_eq_true.mp hany
    refine ⟨Or.inl, ?_⟩
    rintro (hvalues | hvalue)
    · exact hvalues
    · exact List.any_eq_true.mpr ⟨old, hold, Literal.holds_of_same hsame hvalue⟩
  · simp

/-- Adding literals one after another adds the values that they hold. -/
theorem any_holds_foldl_addLiteral {values added : List Literal} {v : Json} :
    (added.foldl addLiteral values).any (·.holds v) = true ↔
      values.any (·.holds v) = true ∨ added.any (·.holds v) = true := by
  induction added generalizing values with
  | nil => simp
  | cons value rest ih =>
      rw [List.foldl_cons, ih, any_holds_addLiteral, List.any_cons, Bool.or_eq_true, or_assoc]

/-- Enumerations of one kind accept the values of that kind that one of their literals holds. -/
theorem someAccepts_of_literals {kind : Kind} {v : Json} :
    ∀ {members : List Schema} {lists : List (List Literal)},
      members.mapM (literalsOf? kind) = some lists →
        (someAccepts members v = true ↔
          kind.holds v = true ∧ lists.flatten.any (·.holds v) = true) := by
  intro members
  induction members with
  | nil =>
      intro lists h
      cases h
      simp [someAccepts]
  | cons member rest ih =>
      intro lists h
      rw [List.mapM_cons] at h
      obtain ⟨values, hvalues, hrest⟩ := Option.bind_eq_some_iff.mp h
      obtain ⟨others, hothers, heq⟩ := Option.bind_eq_some_iff.mp hrest
      cases heq
      cases member with
      | enumeration kind' values' =>
          rw [literalsOf?] at hvalues
          split at hvalues
          · rename_i hkind
            cases hvalues
            rw [someAccepts, Bool.or_eq_true, ih hothers, accepts, hkind, Bool.and_eq_true,
              List.flatten_cons, List.any_append, Bool.or_eq_true, and_or_left]
          · cases hvalues
      | _ => cases hvalues

/-- A merged enumeration accepts what its members accept. -/
theorem mergeEnumerations?_accepts {members : List Schema} {merged : Schema} {v : Json}
    (h : mergeEnumerations? members = some merged) :
    merged.accepts v = true ↔ someAccepts members v = true := by
  cases members with
  | nil => cases h
  | cons first rest =>
      cases first with
      | enumeration kind values =>
          obtain ⟨lists, hlists, heq⟩ := Option.map_eq_some_iff.mp h
          rw [← heq, someAccepts_of_literals hlists, accepts, Bool.and_eq_true,
            any_holds_foldl_addLiteral]
          simp
      | _ => cases h

/-! ## Merged kinds -/

/-- Adding kinds one after another adds the values of these kinds. -/
theorem any_holds_foldl_addKind {kinds added : List Kind} {v : Json} :
    (added.foldl addKind kinds).any (·.holds v) = true ↔
      kinds.any (·.holds v) = true ∨ added.any (·.holds v) = true := by
  induction added generalizing kinds with
  | nil => simp
  | cons kind rest ih =>
      have hstep : (addKind kinds kind).any (·.holds v) = true ↔
          kinds.any (·.holds v) = true ∨ kind.holds v = true := by
        rw [addKind]
        split
        · rename_i hmem
          refine ⟨Or.inl, ?_⟩
          rintro (hkinds | hkind)
          · exact hkinds
          · exact List.any_eq_true.mpr ⟨kind, List.contains_iff_mem.mp hmem, hkind⟩
        · simp
      rw [List.foldl_cons, ih, hstep, List.any_cons, Bool.or_eq_true, or_assoc]

/-- Bare primitives and multi-types accept the values of their kinds. -/
theorem someAccepts_of_kinds {v : Json} : ∀ {members : List Schema} {lists : List (List Kind)},
    members.mapM bareKinds? = some lists →
      (someAccepts members v = true ↔ lists.flatten.any (·.holds v) = true) := by
  intro members
  induction members with
  | nil =>
      intro lists h
      cases h
      simp [someAccepts]
  | cons member rest ih =>
      intro lists h
      rw [List.mapM_cons] at h
      obtain ⟨kinds, hkinds, hrest⟩ := Option.bind_eq_some_iff.mp h
      obtain ⟨others, hothers, heq⟩ := Option.bind_eq_some_iff.mp hrest
      cases heq
      have hmember : member.accepts v = kinds.any (·.holds v) := by
        cases member with
        | primitive kind dateTime =>
            cases dateTime with
            | true => cases hkinds
            | false =>
                cases hkinds
                simp [accepts]
        | multiType kinds' =>
            cases hkinds
            rw [accepts]
        | _ => cases hkinds
      rw [someAccepts, Bool.or_eq_true, ih hothers, hmember, List.flatten_cons, List.any_append,
        Bool.or_eq_true]

/-- A merged multi-type accepts what its members accept. -/
theorem mergeKinds?_accepts {members : List Schema} {merged : Schema} {v : Json}
    (h : mergeKinds? members = some merged) :
    merged.accepts v = true ↔ someAccepts members v = true := by
  obtain ⟨lists, hlists, heq⟩ := Option.map_eq_some_iff.mp h
  have hkinds : (lists.flatten.foldl addKind []).any (·.holds v) = true ↔
      someAccepts members v = true := by
    rw [someAccepts_of_kinds hlists, any_holds_foldl_addKind]
    simp
  rw [← hkinds, ← heq]
  split
  · rename_i kind hsingle
    simp [accepts, hsingle]
  · rw [accepts]

/-! ## Unions -/

/-- **Unions**: the schema of a union accepts exactly what the schema of a member accepts, unless no
    member is left when nested alternatives are opened. -/
theorem union_accepts_iff {members : List Schema} {v : Json}
    (hmembers : distinctMembers? [] members ≠ some []) :
    (union members).accepts v = true ↔ someAccepts members v = true := by
  rw [union]
  split
  · rename_i hnone
    rw [someAccepts_of_distinctMembers?_none hnone]
    exact Iff.rfl
  · rename_i hempty
    exact absurd hempty hmembers
  · rename_i member hdistinct
    simpa [someAccepts] using someAccepts_distinctMembers? (v := v) hdistinct
  · rename_i distinct _ _ hdistinct
    have hall : someAccepts distinct v = true ↔ someAccepts members v = true := by
      simpa [someAccepts] using someAccepts_distinctMembers? (v := v) hdistinct
    rw [← hall]
    split
    · rename_i merged hmerged
      exact mergeEnumerations?_accepts hmerged
    · split
      · rename_i merged hmerged
        exact mergeKinds?_accepts hmerged
      · rw [accepts]

/-- The schema of a union accepts what the schema of a member accepts. -/
theorem union_accepts {members : List Schema} {v : Json} (h : someAccepts members v = true) :
    (union members).accepts v = true := by
  refine (union_accepts_iff fun hempty => ?_).mpr h
  -- Without distinct members nothing is accepted by a member.
  have hnone : someAccepts [] v = true := (someAccepts_distinctMembers? hempty).mpr (Or.inr h)
  exact absurd hnone Bool.false_ne_true

/-- Null has nothing but null as a value. -/
theorem accepts_null_iff {v : Json} : Schema.null.accepts v = true ↔ v = .null := by
  rw [null, accepts]
  cases v <;> simp [Kind.holds]

/-- The schema of a union accepts exactly what the schema of a member accepts, apart from null. -/
theorem union_accepts_iff_of_ne_null {members : List Schema} {v : Json} (hv : v ≠ .null) :
    (union members).accepts v = true ↔ someAccepts members v = true := by
  refine ⟨fun h => ?_, union_accepts⟩
  by_cases hempty : distinctMembers? [] members = some []
  · rw [union, hempty] at h
    exact absurd (accepts_null_iff.mp h) hv
  · exact (union_accepts_iff hempty).mp h

end Schema

end ElementCatalog
