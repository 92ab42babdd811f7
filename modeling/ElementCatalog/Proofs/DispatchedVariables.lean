import ElementCatalog.Proofs.DispatchWalk

/-!
# Dispatched variables — which event a dispatched name stands for

A call may dispatch an event value that a variable was given before.  Toward: what the name refers to
by the rules of scoping is always in reach of the call, but it is the last value in reach, which is
the one that is dispatched, only if no block ended in between and no binder in between was
overlooked.  The walk overlooks everything but plain parameters of functions and event values.  The
route:

* functions are scopes, and what is given an event value is bound in the innermost scope around it
  (`binder_iff_of_constructs`), so what a name refers to is in reach (`inReach_of_refersTo`);
* between the last value in reach and the call the walk has taken note of no other binder
  (`LastInReach.not_followed`), so all that can go wrong is listed by `Misread`.
-/

namespace ElementCatalog

open Source (Binder Node Pattern Place RefersTo ScopeAround ScopeAt)

namespace Surface

variable {w : Workspace} {s : Surface} {roots : List Node} {name : String}

/-- The walk takes note of a binder of a name: a plain parameter of a function, or a variable that is
    given an event value. -/
def Followed (w : Workspace) (s : Surface) (roots : List Node) (name : String) (binder : Place) :
    Prop :=
  ∃ n, Node.at? roots binder = some n ∧
    (name ∈ hiddenNames n ∨ ∃ value, Constructs w s name n value)

/-- A value is misread at a place: its variable belongs to a block that does not enclose the place,
    or between its scope and the place, or after it in its scope, the name is bound anew and the walk
    takes no note of this. -/
inductive Misread (w : Workspace) (s : Surface) (roots : List Node) (name : String)
    (place giver : Place) : Prop where
  | leaked {scope : Place} (hgiver : Binder roots name giver scope) (h : ¬scope.Encloses place)
  | shadowed {scope other inner : Place} (hgiver : Binder roots name giver scope)
    (hother : Binder roots name other inner) (hplace : inner.Encloses place)
    (hinner : scope.Encloses inner)
    (hoverlooked : ¬(Followed w s roots name other ∧ other.Before place))
  | rebound {scope other : Place} (hgiver : Binder roots name giver scope)
    (hother : Binder roots name other scope) (hlater : giver.Before other)
    (hbefore : other.Before place) (hoverlooked : ¬Followed w s roots name other)

section Lexical

variable {place giver other scope : Place} {n : Node} {value : Construction}

/-- Functions are scopes. -/
theorem isScope_of_opensScope (h : opensScope n = true) : n.isScope = true := by
  unfold opensScope at h
  split at h
  · rfl
  · rfl
  · rfl
  · cases h

/-- A plain parameter binds its name. -/
theorem mem_names_of_plainName? {p : Pattern} (h : p.plainName? = some name) : name ∈ p.names := by
  rw [Pattern.plainName?] at h
  split at h
  · next other type hplain =>
      cases h
      cases p with
      | ident => cases hplain; exact List.mem_singleton_self name
      | decorated decorators target =>
          rw [Pattern.undecorated] at hplain
          rw [hplain]
          exact List.mem_singleton_self name
      | _ => cases hplain
  · cases h

/-- Only functions hide names. -/
theorem opensScope_of_mem_hiddenNames (h : name ∈ hiddenNames n) : opensScope n = true := by
  by_contra hopens
  rw [hiddenNames, if_neg hopens] at h
  cases h

/-- A function binds the names that it hides. -/
theorem binder_of_mem_hiddenNames (hn : Node.at? roots place = some n)
    (h : name ∈ hiddenNames n) : Binder roots name place place := by
  have hopens := opensScope_of_mem_hiddenNames h
  rw [hiddenNames, if_pos hopens] at h
  obtain ⟨p, hp, hname⟩ := List.mem_filterMap.mp h
  exact .parameter hn hp (mem_names_of_plainName? hname)

/-- What a function binds, it binds for itself. -/
theorem scope_eq_of_opensScope (h : Binder roots name place scope)
    (hn : Node.at? roots place = some n) (hopens : opensScope n = true) : scope = place := by
  rcases h.node_cases hn with ⟨heq, -⟩ | ⟨hname, -⟩ | ⟨p, rfl⟩
  · exact heq
  · unfold opensScope at hopens
    split at hopens
    · cases hname
    · cases hname
    · cases hname
    · cases hopens
  · cases hopens

/-- A variable that is given an event value is declared in the innermost scope around it. -/
theorem binder_iff_of_constructs (hn : Node.at? roots giver = some n)
    (hconstructs : Constructs w s name n value) :
    Binder roots name giver scope ↔ ScopeAround roots giver scope := by
  cases hconstructs with
  | mk hinit hvalue =>
      constructor
      · intro h
        rcases h.node_cases hn with ⟨-, p, hmem, -⟩ | ⟨-, hscope⟩ | ⟨p, heq⟩
        · cases hmem
        · exact hscope
        · cases heq
      · exact fun hscope => .declared hn (List.mem_singleton_self name) hscope

/-- What is given an event value is no scope. -/
theorem not_scopeAt_of_constructs (hn : Node.at? roots giver = some n)
    (hconstructs : Constructs w s name n value) : ¬ScopeAt roots giver := by
  rintro (rfl | ⟨m, hm, hscope⟩)
  · cases hn
  · rw [hn] at hm
    cases hm
    cases hconstructs
    cases hscope

/-- What the walk takes note of stands in its scope. -/
theorem Followed.scope_isPrefix (h : Followed w s roots name other)
    (hother : Binder roots name other scope) : scope <+: other := by
  obtain ⟨m, hm, hhidden | ⟨later, hconstructs⟩⟩ := h
  · have heq := scope_eq_of_opensScope hother hm (opensScope_of_mem_hiddenNames hhidden)
    exact heq ▸ List.prefix_refl scope
  · exact ((binder_iff_of_constructs hm hconstructs).mp hother).encloses.1

/-- Where the innermost scope around a binder is around a place, every function around the binder is
    around the place. -/
theorem encloses_of_scopeAround {f : Place} (hscope : ScopeAround roots other scope)
    (hplace : scope.Encloses place) (hf : Node.at? roots f = some n)
    (hopens : opensScope n = true) (hencloses : f.Encloses other) : f.Encloses place := by
  have hat : ScopeAt roots f := Or.inr ⟨n, hf, isScope_of_opensScope hopens⟩
  exact hplace.of_isPrefix (hscope.innermost f hat hencloses)

/-- What a name refers to, if it is given an event value, is in reach. -/
theorem inReach_of_refersTo (h : RefersTo roots name place giver)
    (hn : Node.at? roots giver = some n) (hconstructs : Constructs w s name n value) :
    InReach w s roots name place giver value := by
  obtain ⟨hbinder, hencloses, hbefore, hinnermost, -⟩ := h
  have hscope := (binder_iff_of_constructs hn hconstructs).mp hbinder
  refine ⟨⟨n, hn, hconstructs⟩, hbefore, ?_, ?_⟩
  · intro f m hf hopens hgiver
    exact encloses_of_scopeAround hscope hencloses hf hopens hgiver
  · intro f m hf hplace hgiver hhidden
    have hpre := hinnermost f f (binder_of_mem_hiddenNames hf hhidden) hplace
    exact Place.not_before_of_isPrefix (hpre.trans hscope.encloses.1) hgiver

/-- Between the last value in reach of a place and the place, the walk takes note of no binder with a
    scope around the place. -/
theorem LastInReach.not_followed (h : LastInReach w s roots name place giver value)
    (hother : Binder roots name other scope) (hplace : scope.Encloses place)
    (hlater : giver.Before other) (hbefore : other.Before place) :
    ¬Followed w s roots name other := by
  rintro ⟨m, hm, hhidden | ⟨later, hconstructs⟩⟩
  · have heq := scope_eq_of_opensScope hother hm (opensScope_of_mem_hiddenNames hhidden)
    subst heq
    exact h.inReach.shown scope m hm hplace hlater hhidden
  · have hscope := (binder_iff_of_constructs hm hconstructs).mp hother
    have hreach : InReach w s roots name place other later := by
      refine ⟨⟨m, hm, hconstructs⟩, hbefore, ?_, ?_⟩
      · intro f k hf hopens hgiver
        exact encloses_of_scopeAround hscope hplace hf hopens hgiver
      · intro f k hf hencloses hgiver
        exact h.inReach.shown f k hf hencloses (hlater.trans hgiver)
    exact h.last other later hreach hlater

/-- The last value in reach is what the name refers to exactly if it is not misread. -/
theorem LastInReach.refersTo_iff (h : LastInReach w s roots name place giver value) :
    RefersTo roots name place giver ↔ ¬Misread w s roots name place giver := by
  obtain ⟨n, hn, hconstructs⟩ := h.inReach.constructs
  constructor
  · intro hrefers hmisread
    obtain @⟨scope, hbinder, hencloses, hbefore, hinnermost, hlast⟩ := hrefers
    -- Whatever is said of the scope of the giver is said of this one.
    have hunique : ∀ {other}, Binder roots name giver other → other = scope := fun hother =>
      ((binder_iff_of_constructs hn hconstructs).mp hother).unique
        ((binder_iff_of_constructs hn hconstructs).mp hbinder)
    cases hmisread with
    | leaked hgiver hnot =>
        rw [hunique hgiver] at hnot
        exact hnot hencloses
    | shadowed hgiver hother hplace hinner hoverlooked =>
        rw [hunique hgiver] at hinner
        have hpre := hinnermost _ _ hother hplace
        exact hinner.2 (hinner.1.eq_of_length_le hpre.length_le)
    | rebound hgiver hother hlater hbefore' hoverlooked =>
        rw [hunique hgiver] at hother
        exact hlast _ hother hbefore' hlater
  · intro hread
    have hgiver : giver ≠ [] := fun heq =>
      not_scopeAt_of_constructs hn hconstructs (Or.inl heq)
    obtain ⟨scope, hscope⟩ : ∃ scope, ScopeAround roots giver scope :=
      Source.exists_scopeAround hgiver
    have hbinder := (binder_iff_of_constructs hn hconstructs).mpr hscope
    have hencloses : scope.Encloses place := by
      by_contra hnot
      exact hread (.leaked hbinder hnot)
    refine ⟨hbinder, hencloses, h.inReach.before, ?_, ?_⟩
    · intro other inner hother hplace
      by_contra hdeeper
      have hinner : scope.Encloses inner := by
        rcases List.prefix_or_prefix_of_prefix hencloses.1 hplace.1 with hpre | hpre
        · exact ⟨hpre, fun heq => hdeeper (heq ▸ List.prefix_refl scope)⟩
        · exact absurd hpre hdeeper
      -- The giver does not stand in the inner scope, so it comes before all of it.
      have houtside : ¬inner <+: giver := by
        intro hpre
        refine hdeeper (hscope.innermost inner hother.scopeAt ⟨hpre, ?_⟩)
        rintro rfl
        exact not_scopeAt_of_constructs hn hconstructs hother.scopeAt
      have hbeforeInner : giver.Before inner :=
        Place.before_of_not_isPrefix hplace.1 h.inReach.before houtside
      refine hread (.shadowed hbinder hother hplace hinner ?_)
      rintro ⟨hfollowed, hbefore⟩
      have hlater := hbeforeInner.of_isPrefix (hfollowed.scope_isPrefix hother)
      exact h.not_followed hother hplace hlater hbefore hfollowed
    · intro other hother hbefore hlater
      exact hread (.rebound hbinder hother hlater hbefore
        (h.not_followed hother hencloses hlater hbefore))

/-- Where event values are given outside of blocks, and the name is otherwise bound by plain
    parameters of functions, all of it before the place, the last value in reach is what the name
    refers to. -/
theorem LastInReach.refersTo_of_followed (h : LastInReach w s roots name place giver value)
    (hblocks : ∀ scope, Binder roots name giver scope → scope ≠ [] →
      ∃ m, Node.at? roots scope = some m ∧ opensScope m = true)
    (hfollowed : ∀ other inner, Binder roots name other inner → inner.Encloses place →
      Followed w s roots name other ∧ other.Before place) :
    RefersTo roots name place giver := by
  obtain ⟨n, hn, hconstructs⟩ := h.inReach.constructs
  have hencloses : ∀ {scope}, Binder roots name giver scope → scope.Encloses place := by
    intro scope hgiver
    have hscope := (binder_iff_of_constructs hn hconstructs).mp hgiver
    by_cases hroot : scope = []
    · subst hroot
      refine ⟨List.nil_prefix, ?_⟩
      rintro rfl
      exact Place.not_before_nil h.inReach.before
    · obtain ⟨m, hm, hopens⟩ := hblocks scope hgiver hroot
      exact h.inReach.inside scope m hm hopens hscope.encloses
  rw [h.refersTo_iff]
  rintro (⟨hgiver, hnot⟩ | ⟨-, hother, hplace, -, hoverlooked⟩ | ⟨hgiver, hother, -, -, hoverlooked⟩)
  · exact hnot (hencloses hgiver)
  · exact hoverlooked (hfollowed _ _ hother hplace)
  · exact hoverlooked (hfollowed _ _ hother (hencloses hgiver)).1

end Lexical

/-- **Dispatched variables**: the dispatched events of a component are, at the places of its bodies in
    order, those that calls construct themselves, and for a call that dispatches a variable the last
    event value in reach.  What the name refers to at the call is in reach if it is given an event
    value, so no such call is lost.  The last value in reach is what the name refers to exactly if it
    is not misread: its block does not end before the call, and the name is not bound anew by
    anything but plain parameters of functions and event values before the call. -/
theorem dispatched_variables_refer_iff (w : Workspace) (s : Surface) :
    (∃ given, List.Forall₂
        (fun roots => List.Forall₂ (OfPlace w s roots) (Node.placesIn roots)) (bodies s) given ∧
      dispatchedEvents w s = given.flatten.flatten) ∧
    ∀ roots name place,
      (∀ giver n value, RefersTo roots name place giver → Node.at? roots giver = some n →
        Constructs w s name n value → InReach w s roots name place giver value) ∧
      ∀ giver value, LastInReach w s roots name place giver value →
        (RefersTo roots name place giver ↔ ¬Misread w s roots name place giver) :=
  ⟨exists_ofPlace_dispatchedEvents w s, fun _ _ _ =>
    ⟨fun _ _ _ h hn hconstructs => inReach_of_refersTo h hn hconstructs,
      fun _ _ h => h.refersTo_iff⟩⟩

end Surface

end ElementCatalog
