import ElementCatalog.Proofs.WrappedImplementations
import Mathlib.Logic.Relation

/-!
# Wrapper chains — where following variables ends

The target of a registration may be a variable that wraps another variable, and so on, and variables
may wrap one another in any way.  Toward: following them stops after at most as many passes as there
are variables; if the chain of variables comes to a class or to a name that wraps nothing, this is
the target that is left, and otherwise a name on a cycle is.  The route:

* the loop, pass by pass, with the names that it has met (`Pursues`), is what `follow` computes as
  long as fewer variables are unmet than there is fuel (`pursues_follow`);
* the target of every pass lies on the chain, and every name that has been met leads on to it
  (`OnWay`), so a name that is met again lies on a cycle (`Pursues.ends_or_cycles`);
* a variable wraps one thing only, so from a cycle no end is reached (`not_endsChain_of_cyclic`).
-/

namespace ElementCatalog.Registration

open Relation (ReflTransGen TransGen)

variable {wrapped : Dictionary RegistrationTarget}

/-! ## Chains -/

/-- A variable leads to what it wraps. -/
inductive Wraps (wrapped : Dictionary RegistrationTarget) :
    RegistrationTarget → RegistrationTarget → Prop where
  | mk {name : String} {target : RegistrationTarget}
    (h : Dictionary.find? wrapped name = some target) : Wraps wrapped (.named name) target

/-- A chain ends: at a class, or at a name that wraps nothing. -/
inductive EndsChain (wrapped : Dictionary RegistrationTarget) : RegistrationTarget → Prop where
  | inlineClass (value : Source.ClassDef) : EndsChain wrapped (.inlineClass value)
  | unbound {name : String} (h : Dictionary.find? wrapped name = none) :
    EndsChain wrapped (.named name)

/-- A variable wraps one thing. -/
theorem Wraps.unique {target next next' : RegistrationTarget} (h : Wraps wrapped target next)
    (h' : Wraps wrapped target next') : next = next' := by
  cases h with
  | mk h =>
      cases h' with
      | mk h' => exact Option.some.inj (h.symm.trans h')

/-- Where a chain ends, nothing is wrapped. -/
theorem EndsChain.not_wraps {target : RegistrationTarget} (h : EndsChain wrapped target)
    (next : RegistrationTarget) : ¬Wraps wrapped target next := by
  rintro ⟨hbound⟩
  cases h with
  | unbound hnone =>
      rw [hnone] at hbound
      cases hbound

/-- From the end of a chain nothing else is reached. -/
theorem EndsChain.eq_of_reached {target next : RegistrationTarget} (h : EndsChain wrapped target)
    (hnext : ReflTransGen (Wraps wrapped) target next) : next = target := by
  rcases hnext.cases_head with heq | ⟨first, hfirst, -⟩
  · exact heq.symm
  · exact absurd hfirst (h.not_wraps first)

/-- From everything on a chain with an end this end is reached. -/
theorem EndsChain.reached {start target last : RegistrationTarget} (h : EndsChain wrapped last)
    (hlast : ReflTransGen (Wraps wrapped) start last)
    (htarget : ReflTransGen (Wraps wrapped) start target) :
    ReflTransGen (Wraps wrapped) target last := by
  rcases htarget.total_of_right_unique (fun _ _ _ hb hc => hb.unique hc) hlast with hon | hback
  · exact hon
  · rw [h.eq_of_reached hback]

/-- From a cycle every way leads back to it. -/
theorem transGen_of_cyclic {target next : RegistrationTarget}
    (hcycle : TransGen (Wraps wrapped) target target)
    (hnext : ReflTransGen (Wraps wrapped) target next) : TransGen (Wraps wrapped) next target := by
  induction hnext with
  | refl => exact hcycle
  | tail _ hstep ih =>
      obtain ⟨after, hafter, hback⟩ := TransGen.head'_iff.mp ih
      rw [hstep.unique hafter]
      exact TransGen.trans_right hback hcycle

/-- From a cycle no end is reached. -/
theorem not_endsChain_of_cyclic {target last : RegistrationTarget}
    (hcycle : TransGen (Wraps wrapped) target target)
    (hlast : ReflTransGen (Wraps wrapped) target last) : ¬EndsChain wrapped last := by
  intro hend
  obtain ⟨next, hnext, -⟩ := TransGen.head'_iff.mp (transGen_of_cyclic hcycle hlast)
  exact hend.not_wraps next hnext

/-! ## The loop -/

/-- The passes of the loop that follows a target, with the names that it has met: it stops at a class,
    at a name that it meets again and at a name that wraps nothing, and otherwise goes on with what
    the name wraps. -/
inductive Pursues (wrapped : Dictionary RegistrationTarget) :
    List String → RegistrationTarget → (passes : Nat) → RegistrationTarget → Prop where
  | inlineClass {met : List String} (value : Source.ClassDef) :
    Pursues wrapped met (.inlineClass value) 0 (.inlineClass value)
  | met {met : List String} {name : String} (h : name ∈ met) :
    Pursues wrapped met (.named name) 0 (.named name)
  | unbound {met : List String} {name : String} (hmet : name ∉ met)
    (h : Dictionary.find? wrapped name = none) : Pursues wrapped met (.named name) 0 (.named name)
  | bound {met : List String} {name : String} {next last : RegistrationTarget} {passes : Nat}
    (hmet : name ∉ met) (h : Dictionary.find? wrapped name = some next)
    (hrest : Pursues wrapped (name :: met) next passes last) :
    Pursues wrapped met (.named name) (passes + 1) last

/-- The loop takes one way only. -/
theorem Pursues.unique {met : List String} {target last last' : RegistrationTarget}
    {passes passes' : Nat} (h : Pursues wrapped met target passes last)
    (h' : Pursues wrapped met target passes' last') : passes = passes' ∧ last = last' := by
  induction h generalizing passes' with
  | inlineClass =>
      cases h'
      exact ⟨rfl, rfl⟩
  | met h =>
      cases h' with
      | met | unbound => exact ⟨rfl, rfl⟩
      | bound hmet => exact absurd h hmet
  | unbound hmet h =>
      cases h' with
      | met | unbound => exact ⟨rfl, rfl⟩
      | bound _ hbound =>
          rw [h] at hbound
          cases hbound
  | bound hmet h _ ih =>
      cases h' with
      | met h' => exact absurd h' hmet
      | unbound _ hnone =>
          rw [h] at hnone
          cases hnone
      | bound _ h' hrest =>
          cases h.symm.trans h'
          obtain ⟨hpasses, hlast⟩ := ih hrest
          exact ⟨congrArg (· + 1) hpasses, hlast⟩

/-- The loop stops after at most as many passes as there are unmet variables, at the target that
    following computes with more fuel than that. -/
theorem pursues_follow {fuel : Nat} {met : List String} {target : RegistrationTarget}
    (hfuel : (unmet wrapped met).card < fuel) :
    ∃ passes ≤ (unmet wrapped met).card,
      Pursues wrapped met target passes (follow wrapped fuel met target) := by
  induction fuel generalizing met target with
  | zero => exact absurd hfuel (Nat.not_lt_zero _)
  | succ fuel ih =>
      cases target with
      | inlineClass value => exact ⟨0, Nat.zero_le _, .inlineClass value⟩
      | named name =>
          rw [follow]
          by_cases hmet : met.contains name = true
          · rw [if_pos hmet]
            exact ⟨0, Nat.zero_le _, .met (List.contains_iff_mem.mp hmet)⟩
          · rw [if_neg hmet]
            rw [List.contains_iff_mem] at hmet
            cases hfound : Dictionary.find? wrapped name with
            | none => exact ⟨0, Nat.zero_le _, .unbound hmet hfound⟩
            | some next =>
                -- The name is met from now on, so one variable less is unmet.
                have hless := card_unmet_cons hmet hfound
                obtain ⟨passes, hpasses, hrest⟩ := @ih (name :: met) next (by omega)
                exact ⟨passes + 1, by omega, .bound hmet hfound hrest⟩

/-- There are at most as many unmet variables as variables. -/
theorem card_unmet_le (met : List String) : (unmet wrapped met).card ≤ wrapped.length :=
  calc (unmet wrapped met).card
      ≤ (Dictionary.names wrapped).toFinset.card := Finset.card_le_card Finset.sdiff_subset
    _ ≤ (Dictionary.names wrapped).length := List.toFinset_card_le _
    _ = wrapped.length := List.length_map _

/-! ## Ends and cycles -/

/-- The loop is on its way: its target lies on the chain from where it started, and every name that
    it has met leads on to this target. -/
structure OnWay (wrapped : Dictionary RegistrationTarget) (start : RegistrationTarget)
    (met : List String) (target : RegistrationTarget) : Prop where
  reached : ReflTransGen (Wraps wrapped) start target
  behind : ∀ name ∈ met, TransGen (Wraps wrapped) (.named name) target

/-- At the start no name has been met. -/
theorem OnWay.start (start : RegistrationTarget) : OnWay wrapped start [] start :=
  ⟨.refl, fun _ h => absurd h List.not_mem_nil⟩

/-- A pass keeps the loop on its way. -/
theorem OnWay.pass {start next : RegistrationTarget} {met : List String} {name : String}
    (h : OnWay wrapped start met (.named name)) (hnext : Dictionary.find? wrapped name = some next) :
    OnWay wrapped start (name :: met) next := by
  refine ⟨h.reached.tail ⟨hnext⟩, fun other hother => ?_⟩
  rcases List.mem_cons.mp hother with rfl | hmet
  · exact .single ⟨hnext⟩
  · exact (h.behind other hmet).tail ⟨hnext⟩

/-- The loop stops on the chain, at its end or at a name on a cycle. -/
theorem Pursues.ends_or_cycles {start target last : RegistrationTarget} {met : List String}
    {passes : Nat} (h : Pursues wrapped met target passes last)
    (hway : OnWay wrapped start met target) :
    ReflTransGen (Wraps wrapped) start last ∧
      (EndsChain wrapped last ∨
        ∃ name, last = .named name ∧ TransGen (Wraps wrapped) last last) := by
  induction h with
  | inlineClass value => exact ⟨hway.reached, Or.inl (.inlineClass value)⟩
  | met h => exact ⟨hway.reached, Or.inr ⟨_, rfl, hway.behind _ h⟩⟩
  | unbound _ h => exact ⟨hway.reached, Or.inl (.unbound h)⟩
  | bound _ h _ ih => exact ih (hway.pass h)

/-! ## Registrations -/

/-- A registration as it was collected, and as it is handed back with its variables followed. -/
structure FollowsChain (wrapped : Dictionary RegistrationTarget) (collected settled : Registration) :
    Prop where
  /-- The loop stops, and what it stops at is the target that is handed back. -/
  stops : ∃ bound ≤ wrapped.length, ∀ passes last,
    Pursues wrapped [] collected.target passes last ↔ passes = bound ∧ last = settled.target
  /-- A chain with an end is followed to it. -/
  ends : ∀ last, ReflTransGen (Wraps wrapped) collected.target last → EndsChain wrapped last →
    settled.target = last
  /-- On a chain without an end a name is left that lies on a cycle. -/
  cycles : (∀ last, ReflTransGen (Wraps wrapped) collected.target last → ¬EndsChain wrapped last) →
    ∃ name, settled.target = .named name ∧
      ReflTransGen (Wraps wrapped) collected.target (.named name) ∧
      TransGen (Wraps wrapped) (.named name) (.named name)
  tagName : settled.tagName = collected.tagName
  fileId : settled.fileId = collected.fileId
  line : settled.line = collected.line

/-- Following the variables of a registration follows their chain. -/
theorem followsChain_settled (wrapped : Dictionary RegistrationTarget) (r : Registration) :
    FollowsChain wrapped r (settled wrapped r) := by
  have hfuel : (unmet wrapped []).card < wrapped.length + 1 :=
    Nat.lt_succ_of_le (card_unmet_le [])
  obtain ⟨bound, hbound, hrun⟩ : ∃ passes ≤ (unmet wrapped []).card,
      Pursues wrapped [] r.target passes (follow wrapped (wrapped.length + 1) [] r.target) :=
    pursues_follow hfuel
  obtain ⟨hreached, hlast⟩ := hrun.ends_or_cycles (.start r.target)
  constructor
  case stops =>
    refine ⟨bound, hbound.trans (card_unmet_le []), fun passes last => ⟨fun h => h.unique hrun, ?_⟩⟩
    rintro ⟨rfl, rfl⟩
    exact hrun
  case ends =>
    intro last hon hend
    have hafter := hend.reached hon hreached
    rcases hlast with hsettled | ⟨name, -, hcycle⟩
    · exact (hsettled.eq_of_reached hafter).symm
    · exact absurd hend (not_endsChain_of_cyclic hcycle hafter)
  case cycles =>
    intro hnone
    rcases hlast with hsettled | ⟨name, hname, hcycle⟩
    · exact absurd hsettled (hnone _ hreached)
    · rw [hname] at hreached hcycle
      exact ⟨name, hname, hreached, hcycle⟩
  case tagName | fileId | line => rfl

/-- What reading a file collects, before variables are followed. -/
def collected (c : Conventions) (file : SourceFile) : Findings :=
  file.module.nodes.foldl (readNode c file) {}

/-- **Wrapper chains**: whatever variables wrap, following those of a registration stops after at
    most as many passes as there are variables.  If its chain comes to a class or to a name that wraps
    nothing, this is the target that is left, however long the chain; otherwise the target that is
    left is a name on a cycle.  A file hands back the registrations that were collected in it, in
    their order and each changed in nothing but its target, and the diagnostics as they are. -/
theorem wrapper_chains_followed_to_end :
    (∀ wrapped r, FollowsChain wrapped r (settled wrapped r)) ∧
      ∀ c file, List.Forall₂ (FollowsChain (collected c file).wrapped)
          (collected c file).registrations (ofFile c file).1 ∧
        (ofFile c file).2 = (collected c file).diagnostics := by
  refine ⟨followsChain_settled, fun c file => ⟨?_, rfl⟩⟩
  exact List.forall₂_map_right_iff.mpr (List.forall₂_same.mpr fun r _ => followsChain_settled _ r)

-- Three variables wrap one another in a ring that a fourth one leads into.
example :
    follow [("A", .named "B"), ("B", .named "C"), ("C", .named "D"), ("D", .named "B")] 5 []
      (.named "A") = .named "B" := by
  rfl

end ElementCatalog.Registration
