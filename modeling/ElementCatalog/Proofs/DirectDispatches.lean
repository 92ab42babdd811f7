import ElementCatalog.Proofs.EventPrecedence
import ElementCatalog.Proofs.RegistrationOutcomes

/-!
# Direct dispatches — calls that dispatch the event that they construct

A call of a dispatch method may construct the event value itself.  Toward: wherever such a call
stands in a component, its event is found exactly if the callee is a variable or a plain member
access, and every dispatched event is that of the last dispatch of its name.  The route:

* the places of all bodies stand in one order (`pairwise_bodyPlaces`), and at each of them at most
  one event value is dispatched (`OfPlace.eq_of_dispatchesIn`);
* so the last event of a name is that of the last place that dispatches this name
  (`exists_last_dispatches`);
* whatever is dispatched is constructed somewhere in the body, because wrappers and variables are
  followed downwards only (`below?_unwrapped`, `DispatchesIn.exists_new`).
-/

namespace ElementCatalog

open Source (Expr Node Place Position TypeUse)

namespace Source

/-- What stands below the first part of a node stands below the node. -/
theorem Node.exists_below?_of_first {n first found : Node} (hfirst : n.children[0]? = some first)
    (h : ∃ p, first.below? p = some found) : ∃ p, n.below? p = some found := by
  obtain ⟨p, hp⟩ := h
  exact ⟨0 :: p, by rw [below?, hfirst, Option.bind_some, hp]⟩

/-- What is inside type assertions and parentheses stands below them. -/
theorem Node.below?_unwrapped : ∀ e : Expr, ∃ p, (Node.expr e).below? p = some (.expr e.unwrapped)
  | .asType inner _ | .satisfies inner _ | .asConst inner | .nonNull inner | .paren inner => by
      rw [Expr.unwrapped]
      exact exists_below?_of_first rfl (below?_unwrapped inner)
  | .ident _ | .string _ | .number _ | .bigint | .boolean _ | .null | .template _ _ | .array _
  | .object _ | .function _ | .arrow _ _ _ | .arrowTo _ _ _ | .classExpr _ | .unary _ _
  | .awaited _ | .operation _ | .assign _ _ | .call _ _ _ _ | .new _ _ _ | .member _ _
  | .access _ | .instantiated _ _ | .spread _ | .hole | .optionalChain _ _ | .other _ =>
      ⟨[], rfl⟩

/-- What an argument stands for stands in it. -/
theorem Node.below?_argument (e : Expr) :
    ∃ p, (Node.expr e).below? p = some (.expr e.argument) := by
  cases e with
  | spread inner => exact ⟨[0], rfl⟩
  | _ => exact ⟨[], rfl⟩

end Source

namespace Surface

/-! ## Calls as they are written -/

/-- A value is named: it is a variable of the name, or a plain access to a member of the name, in
    whatever type assertions and parentheses. -/
inductive Named (name : String) (e : Expr) : Prop where
  | ident (h : e.unwrapped = .ident name)
  | member {object : Expr} (h : e.unwrapped = .member object name)

/-- A constructor call makes an event value of a kind with a literal name. -/
structure EventLiteral (kind name : String) (callee : Expr) (args : List Expr) : Prop where
  named : Named kind callee
  isEvent : kind.endsWith "Event" = true
  literal : ∃ first rest, args = first :: rest ∧ first.argument.TextLiteral name

/-- A callee is named by a dispatch method. -/
def CallsDispatchMethod (w : Workspace) (callee : Expr) : Prop :=
  ∃ method, Named method callee ∧ w.conventions.isDispatchMethod method = true

/-- A call with a single argument, which constructs an event value with a literal name. -/
inductive DirectCall (roots : List Node) (place : Place) (callee : Expr) (name : String) :
    Prop where
  | mk {start : Position} {typeArgs innerTypes : List TypeUse} {arg inner : Expr}
    {args : List Expr} {kind : String}
    (hnode : Node.at? roots place = some (.expr (.call start callee typeArgs [arg])))
    (hvalue : arg.argument.unwrapped = .new inner innerTypes args)
    (hliteral : EventLiteral kind name inner args)

/-- An event value is dispatched at a place below some roots: the call constructs it, or it is the
    last one in reach that the dispatched variable is given. -/
inductive DispatchesIn (w : Workspace) (s : Surface) (roots : List Node) (place : Place)
    (value : Construction) : Prop where
  | constructed {n : Node} {callee : Expr} {typeArgs : List TypeUse} {args : List Expr}
    (hnode : Node.at? roots place = some n) (hcall : DispatchCall w n (.new callee typeArgs args))
    (hvalue : construction? w s callee typeArgs args = some value)
  | held {n : Node} {name : String} {giver : Place} (hnode : Node.at? roots place = some n)
    (hcall : DispatchCall w n (.ident name))
    (hlast : LastInReach w s roots name place giver value)

/-- Something holds of a place of a component: the number of a body, and a place in this body. -/
def InBody {α : Type} (s : Surface) (R : List Node → Place → α → Prop) (place : Place) (a : α) :
    Prop :=
  ∃ i roots inner, place = i :: inner ∧ (bodies s)[i]? = some roots ∧ R roots inner a

/-- An event value is dispatched at a place of a component. -/
def Dispatches (w : Workspace) (s : Surface) : Place → Construction → Prop :=
  InBody s (DispatchesIn w s)

variable {w : Workspace} {s : Surface} {roots : List Node} {place : Place} {callee e : Expr}
  {args : List Expr} {kind name : String} {value : Construction}

/-- What is named is read as its name. -/
theorem named_iff : Named name e ↔ e.name? = some name := by
  rw [Expr.name?]
  constructor
  · rintro (h | h) <;> rw [h]
  · intro h
    split at h
    · next heq => cases h; exact .ident heq
    · next heq => cases h; exact .member heq
    · cases h

-- Neither a member of the base class nor a callee with type arguments is named.
example (operands : List Expr) (inner : Expr) (typeArgs : List TypeUse) :
    ¬CallsDispatchMethod w (.access operands) ∧
      ¬CallsDispatchMethod w (.paren (.instantiated inner typeArgs)) := by
  constructor <;> rintro ⟨_, ⟨h⟩ | ⟨h⟩, -⟩ <;> cases h

/-- Event values are constructed by exactly the calls that make one with a literal name. -/
theorem exists_construction?_iff (w : Workspace) (s : Surface) (callee : Expr)
    (typeArgs : List TypeUse) (args : List Expr) (kind name : String) :
    (∃ value, construction? w s callee typeArgs args = some value ∧ value.kind = kind ∧
      value.name = name) ↔ EventLiteral kind name callee args := by
  simp only [construction?, Option.bind_eq_bind, Option.bind_eq_some_iff]
  constructor
  · rintro ⟨value, ⟨kind, hkind, ⟨⟩, hguard, name, ⟨first, hfirst, hname⟩, hvalue⟩, rfl, rfl⟩
    obtain ⟨rest, rfl⟩ := List.head?_eq_some_iff.mp hfirst
    cases hvalue
    have hevent : kind.endsWith "Event" = true := by
      by_contra hnot
      rw [guard, if_neg hnot] at hguard
      cases hguard
    exact ⟨named_iff.mpr hkind, hevent, first, rest, rfl, Expr.string?_eq_some_iff.mp hname⟩
  · rintro ⟨hkind, hevent, first, rest, rfl, hname⟩
    have hfirst : ((first :: rest).head?.bind fun arg => arg.argument.string?) = some name :=
      Expr.string?_eq_some_iff.mpr hname
    exact ⟨_, ⟨kind, named_iff.mp hkind, (), if_pos hevent, name,
      Option.bind_eq_some_iff.mp hfirst, rfl⟩, rfl, rfl⟩

/-! ## One place -/

/-- What is in reach of a place last is determined by the place. -/
theorem LastInReach.unique {giver other : Place} {value otherValue : Construction}
    (h : LastInReach w s roots name place giver value)
    (h' : LastInReach w s roots name place other otherValue) : value = otherValue := by
  have hsame : giver = other := by
    rcases giver.before_or_eq_or_before other with hbefore | heq | hbefore
    · exact (h.last _ _ h'.inReach hbefore).elim
    · exact heq
    · exact (h'.last _ _ h.inReach hbefore).elim
  subst hsame
  obtain ⟨n, hn, hinit, hvalue⟩ := h.inReach.constructs
  obtain ⟨m, hm, hconstructs⟩ := h'.inReach.constructs
  rw [hn] at hm
  cases hm
  cases hconstructs with
  | mk hinit' hvalue' =>
      rw [hinit] at hinit'
      cases hinit'
      rw [hvalue] at hvalue'
      exact Option.some.inj hvalue'

/-- At a place nothing is dispatched, or the event of one value. -/
theorem OfPlace.cases_dispatchesIn {given : List EventDescriptor}
    (h : OfPlace w s roots place given) :
    given = [] ∨ ∃ value docs, given = [Construction.toEvent value docs] ∧
      DispatchesIn w s roots place value := by
  cases h with
  | value hnode hcall hvalue => exact Or.inr ⟨_, _, rfl, .constructed hnode hcall hvalue⟩
  | held hnode hcall hlast => exact Or.inr ⟨_, _, rfl, .held hnode hcall hlast⟩
  | unknown | other => exact Or.inl rfl

/-- Where a value is dispatched, its event is all that is dispatched. -/
theorem OfPlace.eq_of_dispatchesIn {given : List EventDescriptor}
    (h : OfPlace w s roots place given) (hvalue : DispatchesIn w s roots place value) :
    ∃ docs, given = [value.toEvent docs] := by
  -- Both tell of the node at the place, and this node is one call with one argument.
  have hsame : ∀ {n m : Node} {e e' : Expr}, Node.at? roots place = some n →
      Node.at? roots place = some m → DispatchCall w n e → DispatchCall w m e' → e = e' := by
    intro n m e e' hn hm hcall hcall'
    rw [hn] at hm
    cases hm
    exact hcall.unique hcall'
  cases hvalue with
  | constructed hnode hcall hvalue =>
      cases h with
      | value hnode' hcall' hvalue' =>
          cases hsame hnode hnode' hcall hcall'
          rw [hvalue] at hvalue'
          cases hvalue'
          exact ⟨_, rfl⟩
      | held hnode' hcall' => cases hsame hnode hnode' hcall hcall'
      | unknown hnode' hcall' => cases hsame hnode hnode' hcall hcall'
      | other hnode' hnone =>
          rw [hnode] at hnode'
          cases hnode'
          rw [hnone _ _ _ hcall] at hvalue
          cases hvalue
  | held hnode hcall hlast =>
      cases h with
      | value hnode' hcall' => cases hsame hnode hnode' hcall hcall'
      | held hnode' hcall' hlast' =>
          cases hsame hnode hnode' hcall hcall'
          rw [hlast.unique hlast']
          exact ⟨_, rfl⟩
      | unknown hnode' hcall' hnone =>
          cases hsame hnode hnode' hcall hcall'
          exact (hnone _ _ hlast.inReach).elim
      | other hnode' hvalue hvariable =>
          rw [hnode] at hnode'
          cases hnode'
          exact (hvariable _ hcall).elim

/-- What is dispatched at a place is constructed somewhere below the same roots, with its name as a
    literal. -/
theorem DispatchesIn.exists_new (h : DispatchesIn w s roots place value) :
    ∃ p callee typeArgs args,
      Node.at? roots p = some (.expr (.new callee typeArgs args)) ∧
        EventLiteral value.kind value.name callee args := by
  have hbelow : ∀ {p n e callee typeArgs args}, Node.at? roots p = some n →
      (∃ q, n.below? q = some (.expr e)) → e.unwrapped = .new callee typeArgs args →
        construction? w s callee typeArgs args = some value →
          ∃ p callee typeArgs args, Node.at? roots p = some (.expr (.new callee typeArgs args)) ∧
            EventLiteral value.kind value.name callee args := by
    rintro p n e callee typeArgs args hn ⟨q, hq⟩ hunwrapped hvalue
    obtain ⟨r, hr⟩ := Node.below?_unwrapped e
    have hp : p ≠ [] := by
      rintro rfl
      cases hn
    refine ⟨p ++ (q ++ r), callee, typeArgs, args, ?_, ?_⟩
    · rw [Node.at?_append roots hp, hn, Option.bind_some, Node.below?_append, hq, Option.bind_some,
        hr, hunwrapped]
    · exact (exists_construction?_iff w s callee typeArgs args _ _).mp ⟨value, hvalue, rfl, rfl⟩
  cases h with
  | @constructed n callee typeArgs args hnode hcall hvalue =>
      generalize he : Expr.new callee typeArgs args = e at hcall
      cases hcall with
      | @mk start dispatcher arg types method hcallee hmethod =>
          obtain ⟨q, hq⟩ := Node.below?_argument arg
          exact hbelow hnode ⟨1 :: q, hq⟩ he.symm hvalue
  | held hnode hcall hlast =>
      obtain ⟨m, hm, hinit, hvalue⟩ := hlast.inReach.constructs
      exact hbelow hm ⟨[1], rfl⟩ hinit hvalue

/-! ## All places of a component -/

/-- The places of a component, in the order of the walk: the number of a body, and a place in it. -/
def bodyPlaces (s : Surface) : List Place :=
  Place.numbered Node.placesIn 0 (bodies s)

/-- The places of a component are in order. -/
theorem pairwise_bodyPlaces (s : Surface) : (bodyPlaces s).Pairwise Place.Before :=
  Place.pairwise_numbered (fun roots _ => Node.pairwise_placesIn roots) 0

/-- What is given body by body is given at the places among the bodies. -/
theorem forall₂_numbered {α : Type} {R : List Node → Place → α → Prop}
    {before rest : List (List Node)} {given : List (List α)}
    (h : List.Forall₂ (fun roots => List.Forall₂ (R roots) (Node.placesIn roots)) rest given)
    (hs : bodies s = before ++ rest) :
    List.Forall₂ (InBody s R) (Place.numbered Node.placesIn before.length rest) given.flatten := by
  induction h generalizing before with
  | nil => exact .nil
  | @cons roots first rest given hfirst _ ih =>
      have hroots : (bodies s)[before.length]? = some roots := by
        rw [hs, List.getElem?_append_right (Nat.le_refl _), Nat.sub_self]
        rfl
      have hothers := ih (hs.trans (List.append_cons before roots rest))
      rw [List.length_append] at hothers
      rw [Place.numbered_cons, List.flatten_cons]
      refine List.rel_append ?_ hothers
      exact List.forall₂_map_left_iff.mpr
        (hfirst.imp fun inner a ha => ⟨before.length, roots, inner, rfl, hroots, ha⟩)

/-- The dispatched events of a component are what is dispatched at its places. -/
theorem exists_inBody_dispatchedEvents (w : Workspace) (s : Surface) :
    ∃ given, List.Forall₂ (InBody s (OfPlace w s)) (bodyPlaces s) given ∧
      dispatchedEvents w s = given.flatten := by
  obtain ⟨given, hgiven, hevents⟩ := exists_ofPlace_dispatchedEvents w s
  have hall : bodies s = [] ++ bodies s := rfl
  exact ⟨given.flatten, forall₂_numbered hgiven hall, hevents⟩

/-- What holds of one place of a component is said of one body. -/
theorem InBody.and {α β : Type} {R : List Node → Place → α → Prop}
    {R' : List Node → Place → β → Prop} {a : α} {b : β} (h : InBody s R place a)
    (h' : InBody s R' place b) :
    ∃ roots ∈ bodies s, ∃ inner, R roots inner a ∧ R' roots inner b := by
  obtain ⟨i, roots, inner, rfl, hroots, ha⟩ := h
  obtain ⟨j, other, inner', heq, hother, hb⟩ := h'
  cases heq
  rw [hroots] at hother
  cases hother
  exact ⟨roots, List.mem_of_getElem? hroots, inner, ha, hb⟩

/-- Where a value is dispatched, there is a place of the component. -/
theorem Dispatches.mem_bodyPlaces (h : Dispatches w s place value) : place ∈ bodyPlaces s := by
  obtain ⟨i, roots, inner, rfl, hroots, hvalue⟩ := h
  have hnode : (Node.at? roots inner).isSome = true := by
    cases hvalue with
    | constructed hnode | held hnode => rw [hnode]; rfl
  exact Place.mem_numbered.mpr
    ⟨i, roots, inner, hroots, Node.mem_placesIn_iff.mpr hnode, by rw [Nat.zero_add]⟩

/-! ## The last dispatch of a name -/

/-- Where every place gives at most one element, an element among those that are given stands at a
    place, and what is given after it is given at later places. -/
theorem exists_split_of_forall₂ {α : Type} {R : Place → List α → Prop} {places : List Place}
    {given : List (List α)} (h : List.Forall₂ R places given)
    (hone : ∀ p l, R p l → l = [] ∨ ∃ a, l = [a]) {before after : List α} {a : α}
    (hsplit : given.flatten = before ++ a :: after) :
    ∃ earlier last later givenLater, places = earlier ++ last :: later ∧ R last [a] ∧
      List.Forall₂ R later givenLater ∧ givenLater.flatten = after := by
  induction h generalizing before with
  | nil =>
      exact absurd hsplit.symm
        (List.append_ne_nil_of_right_ne_nil before (List.cons_ne_nil a after))
  | @cons p first places given hfirst hrest ih =>
      rw [List.flatten_cons] at hsplit
      have hlater : ∀ before', given.flatten = before' ++ a :: after →
          ∃ earlier last later givenLater, p :: places = earlier ++ last :: later ∧ R last [a] ∧
            List.Forall₂ R later givenLater ∧ givenLater.flatten = after := by
        intro before' hsplit'
        obtain ⟨earlier, last, later, givenLater, rfl, hlast⟩ := ih hsplit'
        exact ⟨p :: earlier, last, later, givenLater, rfl, hlast⟩
      rcases hone p first hfirst with rfl | ⟨b, rfl⟩
      · exact hlater before hsplit
      · cases before with
        | nil =>
            obtain ⟨rfl, hafter⟩ := List.cons.inj hsplit
            exact ⟨[], p, places, given, rfl, hfirst, hrest, hafter⟩
        | cons c before => exact hlater before (List.cons.inj hsplit).2

/-- The event of a value tells what the value is. -/
theorem Construction.toEvent_inj {c c' : Construction} {docs docs' : DocBlock}
    (h : c.toEvent docs = c'.toEvent docs') : c = c' := by
  obtain ⟨name, kind, payload, bubbles, composed⟩ := c
  obtain ⟨name', kind', payload', bubbles', composed'⟩ := c'
  simp only [Construction.toEvent, EventDescriptor.mk.injEq] at h
  obtain ⟨rfl, rfl, rfl, -, rfl, rfl, -⟩ := h
  rfl

/-- At a place of a component nothing is dispatched, or the event of one value. -/
theorem cases_dispatches {given : List EventDescriptor} (h : InBody s (OfPlace w s) place given) :
    given = [] ∨ ∃ value docs, given = [Construction.toEvent value docs] ∧
      Dispatches w s place value := by
  obtain ⟨i, roots, inner, rfl, hroots, hplace⟩ := h
  rcases hplace.cases_dispatchesIn with hnil | ⟨value, docs, hgiven, hvalue⟩
  · exact Or.inl hnil
  · exact Or.inr ⟨value, docs, hgiven, i, roots, inner, rfl, hroots, hvalue⟩

/-- Where a component dispatches a value, its event is all that is dispatched. -/
theorem Dispatches.given_eq {given : List EventDescriptor} (h : Dispatches w s place value)
    (hgiven : InBody s (OfPlace w s) place given) : ∃ docs, given = [value.toEvent docs] := by
  obtain ⟨roots, -, inner, hplace, hvalue⟩ := hgiven.and h
  exact hplace.eq_of_dispatchesIn hvalue

/-- What is dispatched at a place is one of the dispatched events. -/
theorem Dispatches.mem_dispatchedEvents (h : Dispatches w s place value) :
    ∃ docs, value.toEvent docs ∈ dispatchedEvents w s := by
  obtain ⟨given, hgiven, hevents⟩ := exists_inBody_dispatchedEvents w s
  obtain ⟨l, hl, hplace⟩ := exists_of_forall₂_mem hgiven h.mem_bodyPlaces
  obtain ⟨docs, rfl⟩ := h.given_eq hplace
  exact ⟨docs, hevents ▸ List.mem_flatten.mpr ⟨_, hl, List.mem_singleton_self _⟩⟩

/-- The last dispatched event of a name is that of the last place at which a value of this name is
    dispatched. -/
theorem exists_last_dispatches {e : EventDescriptor}
    (h : IsLastOfName (dispatchedEvents w s) e) :
    ∃ last value docs, Dispatches w s last value ∧ e = value.toEvent docs ∧
      ∀ p other, Dispatches w s p other → other.name = e.name →
        p.Before last ∨ p = last ∧ other = value := by
  obtain ⟨given, hgiven, hevents⟩ := exists_inBody_dispatchedEvents w s
  obtain ⟨before, after, hsplit, hafter⟩ := h
  rw [hevents] at hsplit
  have hone : ∀ p l, InBody s (OfPlace w s) p l → l = [] ∨ ∃ x, l = [x] := by
    intro p l hl
    rcases cases_dispatches hl with hnil | ⟨value, docs, hvalue, -⟩
    · exact Or.inl hnil
    · exact Or.inr ⟨_, hvalue⟩
  obtain ⟨earlier, last, later, givenLater, hplaces, hlast, hlater, rfl⟩ :=
    exists_split_of_forall₂ hgiven hone hsplit
  rcases cases_dispatches hlast with hnil | ⟨value, docs, hvalue, hdispatches⟩
  · cases hnil
  obtain rfl := List.singleton_inj.mp hvalue
  refine ⟨last, value, docs, hdispatches, rfl, fun p other hother hname => ?_⟩
  have hsorted := pairwise_bodyPlaces s
  have hmem := hother.mem_bodyPlaces
  rw [hplaces] at hsorted hmem
  rcases List.mem_append.mp hmem with hearlier | htail
  · exact Or.inl ((List.pairwise_append.mp hsorted).2.2 p hearlier last List.mem_cons_self)
  · rcases List.mem_cons.mp htail with rfl | hlaterMem
    · obtain ⟨docs', heq⟩ := hother.given_eq hlast
      exact Or.inr ⟨rfl, (Construction.toEvent_inj (List.singleton_inj.mp heq)).symm⟩
    · -- A later dispatch of the name would be a later event of the name.
      obtain ⟨l, hl, hplace⟩ := exists_of_forall₂_mem hlater hlaterMem
      obtain ⟨docs', rfl⟩ := hother.given_eq hplace
      have hafterMem := List.mem_flatten.mpr ⟨_, hl, List.mem_singleton_self (other.toEvent docs')⟩
      exact absurd hname (hafter _ hafterMem)

/-- An event of dispatched source is the last dispatched one of its name. -/
theorem isLastOfName_of_dispatch {e : EventDescriptor} (h : e ∈ s.events w)
    (hsource : e.source = .dispatch) : IsLastOfName (dispatchedEvents w s) e := by
  cases fromLastSource_of_mem_events h with
  | dispatched _ hlast => exact hlast
  | callback hother | documented hother =>
      rw [hsource] at hother
      cases hother

/-- Every name that is dispatched is the name of an event of dispatched source. -/
theorem exists_mem_events_of_dispatches (h : Dispatches w s place value) :
    ∃ e ∈ s.events w, e.name = value.name ∧ e.source = .dispatch := by
  obtain ⟨docs, hmem⟩ := h.mem_dispatchedEvents
  obtain ⟨e, hlast⟩ := Option.isSome_iff_exists.mp
    (isSome_lastOf?_iff.mpr ⟨value.toEvent docs, hmem, rfl⟩)
  have hname : e.name = value.name := name_of_lastOf? hlast
  have hall : lastOf? (documentedEvents s ++ callbackEvents w s ++ dispatchedEvents w s) e.name =
      some e := by
    rw [lastOf?_append, hname]
    exact Option.or_eq_some_iff.mpr (Or.inl hlast)
  obtain ⟨before, after, hsplit, -⟩ := (lastOf?_eq_some_iff.mp hlast).2
  have hdispatched : e ∈ dispatchedEvents w s := hsplit ▸ List.mem_append_right _ List.mem_cons_self
  obtain ⟨value', docs', rfl⟩ := exists_toEvent_of_mem_dispatchedEvents hdispatched
  exact ⟨_, mem_values_lastByName_iff.mpr hall, hname, rfl⟩

/-- A call with a single argument that constructs an event value with a literal name dispatches a
    value of this name exactly if its callee is named by a dispatch method. -/
theorem DirectCall.dispatchesIn_iff (h : DirectCall roots place callee name) :
    (∃ value, DispatchesIn w s roots place value ∧ value.name = name) ↔
      CallsDispatchMethod w callee := by
  obtain @⟨start, typeArgs, innerTypes, arg, inner, args, kind, hnode, hargument, hliteral⟩ := h
  have hcalled : ∀ {n e}, Node.at? roots place = some n → DispatchCall w n e →
      CallsDispatchMethod w callee := by
    intro n e hn hcall
    rw [hnode] at hn
    cases hn
    cases hcall with
    | mk hcallee hmethod => exact ⟨_, named_iff.mpr hcallee, hmethod⟩
  constructor
  · rintro ⟨value, ⟨hn, hcall, -⟩ | ⟨hn, hcall, -⟩, -⟩
    · exact hcalled hn hcall
    · exact hcalled hn hcall
  · rintro ⟨method, hcallee, hmethod⟩
    obtain ⟨value, hvalue, -, hname⟩ :=
      (exists_construction?_iff w s inner innerTypes args kind name).mpr hliteral
    have hcall : DispatchCall w (.expr (.call start callee typeArgs [arg]))
        (.new inner innerTypes args) :=
      hargument ▸ ⟨named_iff.mp hcallee, hmethod⟩
    exact ⟨value, .constructed hnode hcall hvalue, hname⟩

/-- **Direct dispatches**: a call anywhere in a component that constructs the event value it
    dispatches, with a literal name, is found exactly if its callee is a variable or a plain member
    access named by a dispatch method, and then an event of this name is a dispatched one.
    Conversely the name of every dispatched event is the literal name of an event value constructed
    in the component.  All of the event but its documentation comes from the last dispatch of the
    name. -/
theorem direct_dispatches_found_iff (w : Workspace) (s : Surface) :
    (∀ i roots place callee name, (bodies s)[i]? = some roots →
      DirectCall roots place callee name →
        ((∃ value, Dispatches w s (i :: place) value ∧ value.name = name) ↔
          CallsDispatchMethod w callee) ∧
        (CallsDispatchMethod w callee →
          ∃ e ∈ s.events w, e.name = name ∧ e.source = .dispatch)) ∧
    ∀ e ∈ s.events w, e.source = .dispatch →
      (∃ roots ∈ bodies s, ∃ place callee typeArgs args,
        Node.at? roots place = some (.expr (.new callee typeArgs args)) ∧
          EventLiteral e.kind e.name callee args) ∧
      ∃ last value docs, Dispatches w s last value ∧ e = value.toEvent docs ∧
        ∀ p other, Dispatches w s p other → other.name = e.name →
          p.Before last ∨ p = last ∧ other = value := by
  refine ⟨fun i roots place callee name hroots hcall => ?_, fun e he hsource => ?_⟩
  · have hfound : (∃ value, Dispatches w s (i :: place) value ∧ value.name = name) ↔
        CallsDispatchMethod w callee := by
      rw [← hcall.dispatchesIn_iff (w := w) (s := s)]
      constructor
      · rintro ⟨value, ⟨j, other, inner, heq, hother, hvalue⟩, hname⟩
        cases heq
        rw [hroots] at hother
        cases hother
        exact ⟨value, hvalue, hname⟩
      · rintro ⟨value, hvalue, hname⟩
        exact ⟨value, ⟨i, roots, place, rfl, hroots, hvalue⟩, hname⟩
    refine ⟨hfound, fun hcalled => ?_⟩
    obtain ⟨value, hvalue, rfl⟩ := hfound.mpr hcalled
    exact exists_mem_events_of_dispatches hvalue
  · obtain ⟨last, value, docs, hlast, rfl, hafter⟩ :=
      exists_last_dispatches (isLastOfName_of_dispatch he hsource)
    refine ⟨?_, last, value, docs, hlast, rfl, hafter⟩
    obtain ⟨i, roots, inner, -, hroots, hvalue⟩ := hlast
    obtain ⟨p, hnew⟩ := hvalue.exists_new
    exact ⟨roots, List.mem_of_getElem? hroots, p, hnew⟩

end Surface

end ElementCatalog
