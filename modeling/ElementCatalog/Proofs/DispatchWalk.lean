import ElementCatalog.Proofs.CatalogAssembly
import ElementCatalog.Proofs.ObjectProperties
import ElementCatalog.Source.Scoping
import Mathlib.Data.List.Forall2

/-!
# Dispatch walk — what the walk through a body knows at every place

The walk through the body of a component finds the calls that dispatch an event, which they construct
themselves or take from a variable.  It holds one event value for each name, forgets the names of
plain parameters inside their function, and after a function whatever was given in it.  Toward: place
by place, what is dispatched is the event that is constructed there, or the last one that is given to
the variable in reach of the place.  The route:

* entering a node gives a name a value, forgets it, or leaves it alone (`find?_enter`);
* what is in reach changes in the same way from one place to the next (`inReach_enter_iff`,
  `inReach_leave_iff`, `inReach_skip_iff`), so the walk knows what is in reach (`Known`);
* nodes are walked through from place to place (`walked_visit`), first below one node, then along the
  parts of a node and the bodies of a component (`exists_ofPlace_dispatchedEvents`).
-/

namespace ElementCatalog

open Source (ClassMember Expr Node Pattern Place Position TypeUse)

namespace Dictionary

variable {α : Type} {entries : Dictionary α}

/-- Erasing a name forgets its value and leaves every other name alone. -/
theorem find?_erase (h : (names entries).Nodup) (name other : String) :
    find? (erase entries name) other = if other = name then none else find? entries other := by
  induction entries with
  | nil => rw [erase, find?, ite_self]
  | cons entry rest ih =>
      obtain ⟨n, v⟩ := entry
      obtain ⟨hn, hrest⟩ := List.nodup_cons.mp h
      rw [erase]
      by_cases hname : n = name
      · subst hname
        rw [if_pos rfl]
        by_cases hother : other = n
        · subst hother
          rw [if_pos rfl]
          exact find?_eq_none_iff.mpr hn
        · rw [if_neg hother, find?, if_neg (Ne.symm hother)]
      · rw [if_neg hname, find?, find?, ih hrest]
        by_cases hother : n = other
        · rw [if_pos hother, if_pos hother, if_neg (hother ▸ hname)]
        · rw [if_neg hother, if_neg hother]

/-- Erasing keeps every name standing once. -/
theorem nodup_names_erase (h : (names entries).Nodup) (name : String) :
    (names (erase entries name)).Nodup := by
  rw [erase_eq_filter h]
  exact h.sublist (List.filter_sublist.map Prod.fst)

end Dictionary

/-- The name of a plain parameter. -/
def Source.Pattern.plainName? (p : Pattern) : Option String :=
  match p.undecorated with
  | .ident name _ => some name
  | _ => none

namespace Surface

/-! ## Nodes that the walk takes note of -/

/-- A node gives a variable the event value that it constructs. -/
inductive Constructs (w : Workspace) (s : Surface) (name : String) : Node → Construction → Prop where
  | mk {start : Position} {type : Option TypeUse} {init callee : Expr} {typeArgs : List TypeUse}
    {args : List Expr} {value : Construction} (hinit : init.unwrapped = .new callee typeArgs args)
    (hvalue : construction? w s callee typeArgs args = some value) :
    Constructs w s name (.declarator ⟨start, .ident name type, some init⟩) value

/-- The names that a function hides inside: those of its plain parameters. -/
def hiddenNames (n : Node) : List String :=
  if opensScope n then n.parameters.filterMap Pattern.plainName? else []

/-- A call dispatches a value: the only argument of a call of a dispatch method. -/
inductive DispatchCall (w : Workspace) : Node → Expr → Prop where
  | mk {start : Position} {callee arg : Expr} {typeArgs : List TypeUse} {method : String}
    (hcallee : callee.name? = some method)
    (hmethod : w.conventions.isDispatchMethod method = true) :
    DispatchCall w (.expr (.call start callee typeArgs [arg])) arg.argument.unwrapped

section Reach

variable (w : Workspace) (s : Surface) (roots : List Node) (name : String)

/-- A variable is given an event value at a place, and this value is in reach of another place: it is
    given before, every function that it stands in is around the other place too, and no function
    around the other place that begins in between hides the name. -/
structure InReach (place giver : Place) (value : Construction) : Prop where
  constructs : ∃ n, Node.at? roots giver = some n ∧ Constructs w s name n value
  before : giver.Before place
  inside : ∀ f n, Node.at? roots f = some n → opensScope n = true → f.Encloses giver →
    f.Encloses place
  shown : ∀ f n, Node.at? roots f = some n → f.Encloses place → giver.Before f →
    name ∉ hiddenNames n

/-- A value is the last one in reach of a place. -/
structure LastInReach (place giver : Place) (value : Construction) : Prop where
  inReach : InReach w s roots name place giver value
  last : ∀ other v, InReach w s roots name place other v → ¬giver.Before other

end Reach

/-- What is dispatched at a place: the event that is constructed there, or the last one in reach that
    the dispatched variable is given. -/
inductive OfPlace (w : Workspace) (s : Surface) (roots : List Node) (place : Place) :
    List EventDescriptor → Prop where
  | value {n : Node} {callee : Expr} {typeArgs : List TypeUse} {args : List Expr}
    {value : Construction} {docs : DocBlock} (hnode : Node.at? roots place = some n)
    (hcall : DispatchCall w n (.new callee typeArgs args))
    (hvalue : construction? w s callee typeArgs args = some value) :
    OfPlace w s roots place [value.toEvent docs]
  | held {n : Node} {name : String} {giver : Place} {value : Construction} {docs : DocBlock}
    (hnode : Node.at? roots place = some n) (hcall : DispatchCall w n (.ident name))
    (hlast : LastInReach w s roots name place giver value) :
    OfPlace w s roots place [value.toEvent docs]
  | unknown {n : Node} {name : String} (hnode : Node.at? roots place = some n)
    (hcall : DispatchCall w n (.ident name))
    (hnone : ∀ giver value, ¬InReach w s roots name place giver value) : OfPlace w s roots place []
  | other {n : Node} (hnode : Node.at? roots place = some n)
    (hvalue : ∀ callee typeArgs args, DispatchCall w n (.new callee typeArgs args) →
      construction? w s callee typeArgs args = none)
    (hvariable : ∀ name, ¬DispatchCall w n (.ident name)) : OfPlace w s roots place []

variable {w : Workspace} {s : Surface} {roots : List Node} {name : String} {walk : Walk}
  {anchors : List (List Position)}

/-- What gives a value is no function. -/
theorem Constructs.opensScope_eq {n : Node} {value : Construction}
    (h : Constructs w s name n value) : opensScope n = false := by
  cases h
  rfl

/-! ## Entering a node -/

/-- Hiding a parameter erases its name if it is plain. -/
theorem held_hide_singleton (walk : Walk) (p : Pattern) :
    (walk.hide [p]).held =
      match p.plainName? with
      | some other => Dictionary.erase walk.held other
      | none => walk.held := by
  show (match p.undecorated with
    | .ident other _ => Dictionary.erase walk.held other
    | _ => walk.held) = _
  rw [Pattern.plainName?]
  cases p.undecorated <;> rfl

/-- Hiding parameters keeps every name standing once. -/
theorem nodup_hide (params : List Pattern) (walk : Walk)
    (h : (Dictionary.names walk.held).Nodup) :
    (Dictionary.names (walk.hide params).held).Nodup := by
  induction params generalizing walk with
  | nil => exact h
  | cons p rest ih =>
      refine ih (walk.hide [p]) ?_
      rw [held_hide_singleton]
      split
      · next other _ => exact Dictionary.nodup_names_erase h other
      · exact h

/-- Hiding parameters forgets the names of the plain ones and leaves every other name alone. -/
theorem find?_hide (name : String) (params : List Pattern) (walk : Walk)
    (h : (Dictionary.names walk.held).Nodup) :
    Dictionary.find? (walk.hide params).held name =
      if name ∈ params.filterMap Pattern.plainName? then none
      else Dictionary.find? walk.held name := by
  induction params generalizing walk with
  | nil => rfl
  | cons p rest ih =>
      have hrest := ih (walk.hide [p]) (nodup_hide [p] walk h)
      rw [held_hide_singleton] at hrest
      rw [List.filterMap_cons]
      cases hname : p.plainName? with
      | none =>
          rw [hname] at hrest
          exact hrest
      | some other =>
          rw [hname, Dictionary.find?_erase h] at hrest
          refine hrest.trans ?_
          simp only [List.mem_cons]
          by_cases heq : name = other
          · rw [if_pos heq, if_pos (Or.inl heq), ite_self]
          · rw [if_neg heq]
            simp only [heq, false_or]

-- Destructured parameters hide nothing.
example (value : Expr) :
    hiddenNames (.expr (.arrowTo [.ident "event" none] value [])) = ["event"] ∧
      hiddenNames (.expr (.arrowTo [.object [.shorthand "event" none] none] value [])) = [] :=
  ⟨rfl, rfl⟩

/-- Entering a node keeps every name standing once. -/
theorem nodup_enter (w : Workspace) (s : Surface) (anchors : List (List Position)) (n : Node)
    (h : (Dictionary.names walk.held).Nodup) :
    (Dictionary.names (walk.enter w s anchors n).held).Nodup := by
  rw [Walk.enter.eq_def]
  split
  · split <;> exact h
  · next other _ _ =>
      split
      · split
        · exact Dictionary.nodup_names_set h other _
        · exact h
      · exact h
  · exact nodup_hide _ walk h
  · exact nodup_hide _ walk h
  · exact nodup_hide _ walk h
  · exact h

/-- After entering a node a variable holds what the node gives it; else its value is forgotten if the
    node hides the name, and kept if not. -/
theorem find?_enter (w : Workspace) (s : Surface) (anchors : List (List Position)) (n : Node)
    (name : String) (h : (Dictionary.names walk.held).Nodup) :
    (∃ value, Constructs w s name n value ∧
        Dictionary.find? (walk.enter w s anchors n).held name = some value) ∨
      (∀ value, ¬Constructs w s name n value) ∧
        Dictionary.find? (walk.enter w s anchors n).held name =
          if name ∈ hiddenNames n then none else Dictionary.find? walk.held name := by
  rw [Walk.enter.eq_def]
  split
  · refine Or.inr ⟨?_, ?_⟩
    · rintro value ⟨-⟩
    · split <;> rfl
  · next other type init =>
      split
      · next callee typeArgs args hinit =>
          split
          · next value hvalue =>
              rw [Dictionary.find?_set]
              by_cases heq : name = other
              · subst heq
                exact Or.inl ⟨value, ⟨hinit, hvalue⟩, if_pos rfl⟩
              · refine Or.inr ⟨?_, if_neg heq⟩
                rintro value ⟨-⟩
                exact heq rfl
          · next hnone =>
              refine Or.inr ⟨?_, rfl⟩
              rintro value ⟨hinit', hvalue⟩
              rw [hinit] at hinit'
              cases hinit'
              rw [hnone] at hvalue
              cases hvalue
      · next hother =>
          refine Or.inr ⟨?_, rfl⟩
          rintro value ⟨hinit, -⟩
          exact hother _ _ _ hinit
  · exact Or.inr ⟨by rintro _ ⟨-⟩, find?_hide name _ walk h⟩
  · exact Or.inr ⟨by rintro _ ⟨-⟩, find?_hide name _ walk h⟩
  · exact Or.inr ⟨by rintro _ ⟨-⟩, find?_hide name _ walk h⟩
  · next hdeclarator hfunction harrow harrowTo =>
      have hopens : opensScope n = false := by
        unfold opensScope
        split
        · exact (hfunction _ rfl).elim
        · exact (harrow _ _ _ rfl).elim
        · exact (harrowTo _ _ _ rfl).elim
        · rfl
      have hnames : hiddenNames n = [] := by
        rw [hiddenNames, hopens]
        rfl
      refine Or.inr ⟨?_, ?_⟩
      · rintro _ ⟨-⟩
        exact hdeclarator _ _ _ _ rfl
      · rw [hnames, if_neg List.not_mem_nil]

/-! ## Reach from place to place -/

section Steps

variable {outer place giver : Place} {i : Nat} {n : Node} {value : Construction}

/-- In reach of the first part of a node is what the node gives, and what is in reach of the node
    itself under a name that the node does not hide. -/
theorem inReach_enter_iff (hn : Node.at? roots place = some n) :
    InReach w s roots name (place ++ [0]) giver value ↔
      giver = place ∧ Constructs w s name n value ∨
        name ∉ hiddenNames n ∧ InReach w s roots name place giver value := by
  constructor
  · intro h
    rcases Place.before_concat_iff.mp h.before with hbefore | rfl | ⟨j, hlt, -⟩
    · have hplace : place.Encloses (place ++ [0]) :=
        Place.encloses_concat_iff.mpr (List.prefix_refl place)
      refine Or.inr ⟨h.shown place n hn hplace hbefore, h.constructs, hbefore, ?_, ?_⟩
      · intro f m hf hopens hgiver
        refine ⟨Place.encloses_concat_iff.mp (h.inside f m hf hopens hgiver), ?_⟩
        rintro rfl
        exact Place.not_before_of_isPrefix hgiver.1 hbefore
      · intro f m hf hencloses hgiver
        exact h.shown f m hf (Place.encloses_concat_iff.mpr hencloses.1) hgiver
    · obtain ⟨m, hm, hconstructs⟩ := h.constructs
      rw [hn] at hm
      cases hm
      exact Or.inl ⟨rfl, hconstructs⟩
    · exact absurd hlt (Nat.not_lt_zero j)
  · rintro (⟨rfl, hconstructs⟩ | ⟨hshown, h⟩)
    · refine ⟨⟨n, hn, hconstructs⟩, Place.before_concat_iff.mpr (Or.inr (Or.inl rfl)), ?_, ?_⟩
      · intro f m hf hopens hgiver
        exact Place.encloses_concat_iff.mpr hgiver.1
      · intro f m hf hencloses hgiver
        exact absurd hgiver
          (Place.not_before_of_isPrefix (Place.encloses_concat_iff.mp hencloses))
    · refine ⟨h.constructs, Place.before_concat_iff.mpr (Or.inl h.before), ?_, ?_⟩
      · intro f m hf hopens hgiver
        exact Place.encloses_concat_iff.mpr (h.inside f m hf hopens hgiver).1
      · intro f m hf hencloses hgiver
        by_cases heq : f = place
        · rw [heq, hn] at hf
          cases hf
          exact hshown
        · exact h.shown f m hf ⟨Place.encloses_concat_iff.mp hencloses, heq⟩ hgiver

/-- What is in reach after the last part of a node that is no function is in reach after it. -/
theorem inReach_leave_iff (hn : Node.at? roots (outer ++ [i]) = some n)
    (hopens : opensScope n = false) :
    InReach w s roots name (outer ++ [i] ++ [n.children.length]) giver value ↔
      InReach w s roots name (outer ++ [i + 1]) giver value := by
  constructor
  · intro h
    obtain ⟨m, hm, -⟩ := h.constructs
    refine ⟨h.constructs, ?_, ?_, ?_⟩
    · exact Place.before_next_iff.mpr ((Node.before_end_iff hn hm).mp h.before)
    · intro f k hf hopens' hgiver
      have hpre := Place.encloses_concat_iff.mp (h.inside f k hf hopens' hgiver)
      have hne : f ≠ outer ++ [i] := by
        rintro rfl
        rw [hn] at hf
        cases hf
        rw [hopens] at hopens'
        cases hopens'
      have houter : f.Encloses (outer ++ [i]) := ⟨hpre, hne⟩
      exact Place.encloses_concat_iff.mpr (Place.encloses_concat_iff.mp houter)
    · intro f k hf hencloses hgiver
      have hpre := Place.encloses_concat_iff.mp hencloses
      have hinner : f.Encloses (outer ++ [i] ++ [n.children.length]) :=
        Place.encloses_concat_iff.mpr (hpre.trans (List.prefix_append outer [i]))
      exact h.shown f k hf hinner hgiver
  · intro h
    obtain ⟨m, hm, -⟩ := h.constructs
    refine ⟨h.constructs, ?_, ?_, ?_⟩
    · exact (Node.before_end_iff hn hm).mpr (Place.before_next_iff.mp h.before)
    · intro f k hf hopens' hgiver
      have hpre := Place.encloses_concat_iff.mp (h.inside f k hf hopens' hgiver)
      exact Place.encloses_concat_iff.mpr (hpre.trans (List.prefix_append outer [i]))
    · intro f k hf hencloses hgiver
      have hpre := Place.encloses_concat_iff.mp hencloses
      by_cases heq : f = outer ++ [i]
      · rw [heq, hn] at hf
        cases hf
        rw [hiddenNames, hopens]
        exact List.not_mem_nil
      · have houter : f.Encloses (outer ++ [i]) := ⟨hpre, heq⟩
        exact h.shown f k hf
          (Place.encloses_concat_iff.mpr (Place.encloses_concat_iff.mp houter)) hgiver

/-- What is in reach of a function is in reach after it. -/
theorem inReach_skip_iff (hn : Node.at? roots (outer ++ [i]) = some n)
    (hopens : opensScope n = true) :
    InReach w s roots name (outer ++ [i]) giver value ↔
      InReach w s roots name (outer ++ [i + 1]) giver value := by
  have hsame : ∀ f : Place, f.Encloses (outer ++ [i]) ↔ f.Encloses (outer ++ [i + 1]) := by
    intro f
    rw [Place.encloses_concat_iff, Place.encloses_concat_iff]
  constructor
  · intro h
    refine ⟨h.constructs, Place.before_next_iff.mpr (Or.inl h.before), ?_, ?_⟩
    · intro f k hf hopens' hgiver
      exact (hsame f).mp (h.inside f k hf hopens' hgiver)
    · intro f k hf hencloses hgiver
      exact h.shown f k hf ((hsame f).mpr hencloses) hgiver
  · intro h
    refine ⟨h.constructs, ?_, ?_, ?_⟩
    · rcases Place.before_next_iff.mp h.before with hbefore | hpre
      · exact hbefore
      · -- what a function gives inside is out of reach after it
        obtain ⟨m, hm, hconstructs⟩ := h.constructs
        have hne : outer ++ [i] ≠ giver := by
          rintro rfl
          rw [hn] at hm
          cases hm
          rw [hconstructs.opensScope_eq] at hopens
          cases hopens
        have hinside := h.inside (outer ++ [i]) n hn hopens ⟨hpre, hne⟩
        exact absurd rfl ((hsame _).mpr hinside).2
    · intro f k hf hopens' hgiver
      exact (hsame f).mpr (h.inside f k hf hopens' hgiver)
    · intro f k hf hencloses hgiver
      exact h.shown f k hf ((hsame f).mp hencloses) hgiver

end Steps

/-! ## What the walk knows at a place -/

/-- The walk knows at a place what is in reach there: every variable holds the last value. -/
structure Known (w : Workspace) (s : Surface) (roots : List Node) (place : Place)
    (held : Dictionary Construction) : Prop where
  nodup : (Dictionary.names held).Nodup
  isLast : ∀ name,
    Place.IsLast (InReach w s roots name place) (Dictionary.find? held name)

namespace Known

variable {outer place : Place} {i : Nat} {n : Node}

/-- Nothing is in reach of the first root. -/
theorem start (w : Workspace) (s : Surface) (roots : List Node) : Known w s roots [0] [] := by
  refine ⟨List.nodup_nil, fun name giver value h => ?_⟩
  have hfirst : giver.Before ([] ++ [0]) := h.before
  rcases Place.before_concat_iff.mp hfirst with hbefore | rfl | ⟨j, hlt, -⟩
  · exact Place.not_before_nil hbefore
  · obtain ⟨m, hm, -⟩ := h.constructs
    cases hm
  · exact Nat.not_lt_zero j hlt

/-- After entering a node the walk knows what is in reach of its first part. -/
theorem enter (h : Known w s roots place walk.held) (hn : Node.at? roots place = some n) :
    Known w s roots (place ++ [0]) (walk.enter w s anchors n).held := by
  refine ⟨nodup_enter w s anchors n h.nodup, fun name => ?_⟩
  obtain ⟨value, hconstructs, hfind⟩ | ⟨hnone, hfind⟩ := find?_enter w s anchors n name h.nodup
  · rw [hfind]
    refine ⟨place, (inReach_enter_iff hn).mpr (Or.inl ⟨rfl, hconstructs⟩), ?_⟩
    intro other v hother hbefore
    rcases (inReach_enter_iff hn).mp hother with ⟨rfl, -⟩ | ⟨-, hreach⟩
    · exact Place.not_before_self other hbefore
    · exact Place.not_before_self place (hbefore.trans hreach.before)
  · rw [hfind]
    by_cases hhidden : name ∈ hiddenNames n
    · rw [if_pos hhidden]
      intro giver value hreach
      rcases (inReach_enter_iff hn).mp hreach with ⟨-, hconstructs⟩ | ⟨hshown, -⟩
      · exact hnone value hconstructs
      · exact hshown hhidden
    · rw [if_neg hhidden]
      refine (h.isLast name).congr fun giver value => ?_
      rw [inReach_enter_iff hn]
      constructor
      · exact fun hreach => Or.inr ⟨hhidden, hreach⟩
      · rintro (⟨-, hconstructs⟩ | ⟨-, hreach⟩)
        · exact (hnone value hconstructs).elim
        · exact hreach

/-- After the last part of a node that is no function the walk knows what is in reach after it. -/
theorem leave {held : Dictionary Construction}
    (h : Known w s roots (outer ++ [i] ++ [n.children.length]) held)
    (hn : Node.at? roots (outer ++ [i]) = some n) (hopens : opensScope n = false) :
    Known w s roots (outer ++ [i + 1]) held :=
  ⟨h.nodup, fun name => (h.isLast name).congr fun _ _ => inReach_leave_iff hn hopens⟩

/-- What the walk knows at a function it knows after it. -/
theorem skip {held : Dictionary Construction} (h : Known w s roots (outer ++ [i]) held)
    (hn : Node.at? roots (outer ++ [i]) = some n) (hopens : opensScope n = true) :
    Known w s roots (outer ++ [i + 1]) held :=
  ⟨h.nodup, fun name => (h.isLast name).congr fun _ _ => inReach_skip_iff hn hopens⟩

end Known

/-! ## Dispatch calls -/

/-- The event value that an expression stands for: one that it constructs, or one that is held. -/
def valueOf? (w : Workspace) (s : Surface) (walk : Walk) : Expr → Option Construction
  | .new callee typeArgs args => construction? w s callee typeArgs args
  | .ident name => Dictionary.find? walk.held name
  | _ => none

/-- A call dispatches at most one value. -/
theorem DispatchCall.unique {n : Node} {e e' : Expr} (h : DispatchCall w n e)
    (h' : DispatchCall w n e') : e = e' := by
  cases h
  cases h'
  rfl

/-- The value that a call dispatches is what the expression stands for that it dispatches. -/
theorem dispatched?_cases (w : Workspace) (s : Surface) (walk : Walk) (start : Position)
    (callee : Expr) (typeArgs : List TypeUse) (args : List Expr) :
    (∃ e, DispatchCall w (.expr (.call start callee typeArgs args)) e ∧
        dispatched? w s walk callee args = valueOf? w s walk e) ∨
      (∀ e, ¬DispatchCall w (.expr (.call start callee typeArgs args)) e) ∧
        dispatched? w s walk callee args = none := by
  rw [dispatched?.eq_def]
  split
  · next method arg hcallee =>
      by_cases hmethod : w.conventions.isDispatchMethod method = true
      · rw [if_pos hmethod]
        exact Or.inl ⟨_, ⟨hcallee, hmethod⟩, rfl⟩
      · rw [if_neg hmethod]
        refine Or.inr ⟨?_, rfl⟩
        rintro e ⟨hcallee', hmethod'⟩
        rw [hcallee] at hcallee'
        cases hcallee'
        exact hmethod hmethod'
  · next hother =>
      refine Or.inr ⟨?_, rfl⟩
      rintro e ⟨hcallee, -⟩
      exact hother _ _ hcallee rfl

/-- Without a dispatch call nothing is dispatched at a place. -/
theorem ofPlace_nil {place : Place} {n : Node} (hn : Node.at? roots place = some n)
    (h : ∀ e, ¬DispatchCall w n e) : OfPlace w s roots place [] :=
  .other hn (fun _ _ _ hcall => (h _ hcall).elim) fun _ => h _

/-- Where the walk knows what is in reach, the value of a dispatch call is what is dispatched. -/
theorem ofPlace_valueOf? {place : Place} {n : Node} {e : Expr}
    (h : Known w s roots place walk.held) (hn : Node.at? roots place = some n)
    (hcall : DispatchCall w n e) (docs : DocBlock) :
    OfPlace w s roots place ((valueOf? w s walk e).toList.map (·.toEvent docs)) := by
  unfold valueOf?
  split
  · next callee typeArgs args =>
      cases hvalue : construction? w s callee typeArgs args with
      | some value => exact .value hn hcall hvalue
      | none =>
          refine .other hn ?_ ?_
          · intro callee' typeArgs' args' hcall'
            cases hcall.unique hcall'
            exact hvalue
          · intro name hcall'
            cases hcall.unique hcall'
  · next name =>
      have hlast := h.isLast name
      cases hvalue : Dictionary.find? walk.held name with
      | some value =>
          rw [hvalue] at hlast
          obtain ⟨giver, hreach, hafter⟩ := hlast
          exact .held hn hcall ⟨hreach, hafter⟩
      | none =>
          rw [hvalue] at hlast
          exact .unknown hn hcall hlast
  · next hnew hident =>
      refine .other hn ?_ ?_
      · intro callee typeArgs args hcall'
        exact (hnew _ _ _ (hcall.unique hcall')).elim
      · intro name hcall'
        exact hident _ (hcall.unique hcall')

/-- Where the walk knows what is in reach, entering a node adds what is dispatched there. -/
theorem exists_ofPlace_enter {place : Place} {n : Node} (h : Known w s roots place walk.held)
    (hn : Node.at? roots place = some n) (anchors : List (List Position)) :
    ∃ given, OfPlace w s roots place given ∧
      (walk.enter w s anchors n).events = walk.events ++ given := by
  have hnothing : ∀ entered : Walk, (∀ e, ¬DispatchCall w n e) → entered.events = walk.events →
      ∃ given, OfPlace w s roots place given ∧ entered.events = walk.events ++ given := by
    intro entered hnone hevents
    exact ⟨[], ofPlace_nil hn hnone, hevents.trans (List.append_nil walk.events).symm⟩
  rw [Walk.enter.eq_def]
  split
  · next start callee typeArgs args =>
      obtain ⟨e, hcall, hvalue⟩ | ⟨hnone, hvalue⟩ :=
        dispatched?_cases w s walk start callee typeArgs args
      · refine ⟨_, ofPlace_valueOf? h hn hcall (s.enclosingDocs anchors), ?_⟩
        rw [hvalue]
        cases valueOf? w s walk e with
        | some value => rfl
        | none => exact (List.append_nil walk.events).symm
      · rw [hvalue]
        exact hnothing walk hnone rfl
  -- Nothing but a call adds an event.
  · refine hnothing _ (by rintro e ⟨⟩) ?_
    split
    · split <;> rfl
    · rfl
  · exact hnothing _ (by rintro e ⟨⟩) rfl
  · exact hnothing _ (by rintro e ⟨⟩) rfl
  · exact hnothing _ (by rintro e ⟨⟩) rfl
  · next hcall _ _ _ _ =>
      refine hnothing _ ?_ rfl
      rintro e ⟨⟩
      exact hcall _ _ _ _ rfl

/-! ## The whole walk -/

/-- Walking along places adds what is dispatched there, and then the walk knows what is in reach of
    the next place. -/
structure Walked (w : Workspace) (s : Surface) (roots : List Node) (places : List Place)
    (next : Place) (before after : Walk) : Prop where
  events : ∃ given, List.Forall₂ (OfPlace w s roots) places given ∧
    after.events = before.events ++ given.flatten
  known : Known w s roots next after.held

/-- Walks may be joined. -/
theorem Walked.append {places more : List Place} {next last : Place} {before between after : Walk}
    (h : Walked w s roots places next before between)
    (h' : Walked w s roots more last between after) :
    Walked w s roots (places ++ more) last before after := by
  obtain ⟨given, hgiven, hevents⟩ := h.events
  obtain ⟨given', hgiven', hevents'⟩ := h'.events
  refine ⟨⟨given ++ given', List.rel_append hgiven hgiven', ?_⟩, h'.known⟩
  rw [hevents', hevents, List.flatten_append, List.append_assoc]

/-- Walking through a node is entering it and walking through its parts; what was held before a
    function is held after it. -/
theorem visit_eq (n : Node) :
    walk.visit w s anchors n =
      let inside := n.children.foldl (Walk.visit w s (innerAnchors anchors n))
        (walk.enter w s anchors n)
      if opensScope n then { inside with held := walk.held } else inside := by
  rw [Walk.visit]
  simp only [List.foldl_subtype, List.unattach_attach]

/-- Nodes that are each walked through rightly are walked through rightly one after another. -/
theorem walked_foldl {outer : Place} {nodes : List Node} (start : Nat)
    (hnodes : ∀ j, Node.at? roots (outer ++ [start + j]) = nodes[j]?)
    (h : ∀ n ∈ nodes, ∀ i walk, Node.at? roots (outer ++ [i]) = some n →
      Known w s roots (outer ++ [i]) walk.held →
        Walked w s roots (n.places.map (outer ++ [i] ++ ·)) (outer ++ [i + 1]) walk
          (walk.visit w s anchors n))
    (walk : Walk) (hknown : Known w s roots (outer ++ [start]) walk.held) :
    Walked w s roots ((Node.placesFrom start nodes).map (outer ++ ·))
      (outer ++ [start + nodes.length]) walk (nodes.foldl (Walk.visit w s anchors) walk) := by
  -- The induction is on the nodes that are left; the first of them has the number `start`.
  induction nodes generalizing start walk with
  | nil => exact ⟨⟨[], List.Forall₂.nil, (List.append_nil walk.events).symm⟩, hknown⟩
  | cons n rest ih =>
      obtain ⟨hn, hrest⟩ := List.forall_mem_cons.mp h
      have hfirst := hn start walk (hnodes 0) hknown
      have hothers := ih (start + 1)
        (fun j => by rw [Nat.add_assoc, Nat.add_comm 1 j]; exact hnodes (j + 1)) hrest _ hfirst.known
      have hplaces : (Node.placesFrom start (n :: rest)).map (outer ++ ·) =
          n.places.map (outer ++ [start] ++ ·) ++
            (Node.placesFrom (start + 1) rest).map (outer ++ ·) := by
        rw [Node.placesFrom_cons, List.map_append, List.map_map]
        congr 1
        exact List.map_congr_left fun p _ => List.append_cons outer start p
      rw [hplaces, List.length_cons, ← Nat.add_assoc, Nat.add_right_comm]
      exact hfirst.append hothers

/-- A node below some roots is walked through rightly. -/
theorem walked_visit (n : Node) :
    ∀ outer i walk anchors, Node.at? roots (outer ++ [i]) = some n →
      Known w s roots (outer ++ [i]) walk.held →
        Walked w s roots (n.places.map (outer ++ [i] ++ ·)) (outer ++ [i + 1]) walk
          (walk.visit w s anchors n) := by
  induction n using Node.induction with
  | step n ih =>
      intro outer i walk anchors hn hknown
      obtain ⟨given, hgiven, hevents⟩ := exists_ofPlace_enter hknown hn anchors
      have hparts : ∀ j, Node.at? roots (outer ++ [i] ++ [0 + j]) = n.children[j]? := by
        intro j
        rw [Nat.zero_add]
        exact Node.at?_concat hn j
      have hinside := walked_foldl 0 hparts
        (fun c hc j walk => ih c hc (outer ++ [i]) j walk (innerAnchors anchors n))
        (walk.enter w s anchors n) (hknown.enter hn)
      obtain ⟨found, hfound, hfoundEvents⟩ := hinside.events
      have hplaces : n.places.map (outer ++ [i] ++ ·) =
          (outer ++ [i]) :: (Node.placesFrom 0 n.children).map (outer ++ [i] ++ ·) := by
        rw [Node.places_eq, List.map_cons, List.append_nil]
        rfl
      have hall : List.Forall₂ (OfPlace w s roots) (n.places.map (outer ++ [i] ++ ·))
          (given :: found) := by
        rw [hplaces]
        exact .cons hgiven hfound
      have hsum : (n.children.foldl (Walk.visit w s (innerAnchors anchors n))
          (walk.enter w s anchors n)).events = walk.events ++ (given :: found).flatten := by
        rw [hfoundEvents, hevents, List.flatten_cons, List.append_assoc]
      rw [visit_eq]
      -- After a function the walk holds what it held before it, else what it holds after the parts.
      by_cases hopens : opensScope n = true
      · rw [if_pos hopens]
        exact ⟨⟨given :: found, hall, hsum⟩, hknown.skip hn hopens⟩
      · rw [if_neg hopens]
        have hknown' := hinside.known
        rw [Nat.zero_add] at hknown'
        exact ⟨⟨given :: found, hall, hsum⟩,
          hknown'.leave hn (Bool.not_eq_true _ ▸ hopens)⟩

/-- Some roots are walked through rightly. -/
theorem exists_ofPlace_roots (w : Workspace) (s : Surface) (roots : List Node)
    (anchors : List (List Position)) {walk : Walk} (hheld : walk.held = []) :
    ∃ given, List.Forall₂ (OfPlace w s roots) (Node.placesIn roots) given ∧
      (roots.foldl (Walk.visit w s anchors) walk).events = walk.events ++ given.flatten := by
  have hroots : ∀ j, Node.at? roots ([] ++ [0 + j]) = roots[j]? := by
    intro j
    rw [Nat.zero_add, List.nil_append, Node.at?]
    cases roots[j]? with
    | none => rfl
    | some n => rfl
  have hknown : Known w s roots ([] ++ [0]) walk.held := hheld ▸ Known.start w s roots
  have hwalked := walked_foldl 0 hroots
    (fun n _ i walk => walked_visit n [] i walk anchors) walk hknown
  have hplaces : (Node.placesFrom 0 roots).map ([] ++ ·) = Node.placesIn roots := List.map_id _
  exact hplaces ▸ hwalked.events

/-! ## Bodies -/

/-- The bodies of a component that the walk goes through on their own: the members of its class, and
    the body of its function. -/
def bodies (s : Surface) : List (List Node) :=
  ((s.implementedBy.map (·.members)).getD []).map (fun m => [.member m]) ++
    match s.body with
    | some (.block stmts) => [stmts.map .stmt]
    | some (.expr value) => [[.expr value]]
    | none => []

/-- Walking through the members of a class adds what is dispatched in each of them. -/
theorem exists_ofPlace_members (w : Workspace) (s : Surface) (members : List ClassMember)
    (walk : Walk) (hheld : walk.held = []) :
    ∃ given, List.Forall₂
        (fun roots => List.Forall₂ (OfPlace w s roots) (Node.placesIn roots))
        (members.map fun m => [Node.member m]) given ∧
      (members.foldl (Walk.visitMember w s) walk).events = walk.events ++ given.flatten.flatten ∧
      (members.foldl (Walk.visitMember w s) walk).held = [] := by
  induction members generalizing walk with
  | nil => exact ⟨[], List.Forall₂.nil, (List.append_nil walk.events).symm, hheld⟩
  | cons m rest ih =>
      obtain ⟨first, hfirst, hevents⟩ :=
        exists_ofPlace_roots w s [.member m] [memberAnchors m] hheld
      -- What the variables of a member hold is forgotten, so the next one starts from nothing too.
      obtain ⟨given, hgiven, hrest, hheld'⟩ := ih (walk.visitMember w s m) hheld
      refine ⟨first :: given, .cons hfirst hgiven, ?_, hheld'⟩
      rw [List.foldl_cons, hrest, List.flatten_cons, List.flatten_append, ← List.append_assoc]
      congr 1

/-- The dispatched events of a component are what is dispatched at the places of its bodies. -/
theorem exists_ofPlace_dispatchedEvents (w : Workspace) (s : Surface) :
    ∃ given, List.Forall₂
        (fun roots => List.Forall₂ (OfPlace w s roots) (Node.placesIn roots)) (bodies s) given ∧
      dispatchedEvents w s = given.flatten.flatten := by
  obtain ⟨given, hgiven, hevents, hheld⟩ :=
    exists_ofPlace_members w s ((s.implementedBy.map (·.members)).getD []) {} rfl
  rw [dispatchedEvents, bodies]
  generalize ((s.implementedBy.map (·.members)).getD []).foldl (Walk.visitMember w s) {} = walk
    at hevents hheld
  have hlast : ∀ roots, ∃ all, List.Forall₂
      (fun roots => List.Forall₂ (OfPlace w s roots) (Node.placesIn roots))
        (((s.implementedBy.map (·.members)).getD []).map (fun m => [.member m]) ++ [roots]) all ∧
      (roots.foldl (Walk.visit w s []) walk).events = all.flatten.flatten := by
    intro roots
    obtain ⟨last, hlast, hbody⟩ := exists_ofPlace_roots w s roots [] hheld
    refine ⟨given ++ [last], List.rel_append hgiven (.cons hlast .nil), ?_⟩
    rw [hbody, hevents, List.flatten_append, List.flatten_append, List.flatten_singleton]
    rfl
  cases s.body with
  | none =>
      refine ⟨given, ?_, hevents⟩
      rw [List.append_nil]
      exact hgiven
  | some body =>
      cases body with
      | block stmts =>
          obtain ⟨all, hall, hbody⟩ := hlast (stmts.map .stmt)
          rw [List.foldl_map] at hbody
          exact ⟨all, hall, hbody⟩
      | expr value => exact hlast [.expr value]

end Surface

end ElementCatalog
