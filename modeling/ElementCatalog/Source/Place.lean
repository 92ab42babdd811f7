import ElementCatalog.Source.Node
import Mathlib.Data.List.Lex

/-!
# Places — where the parts of a source stand

A node may occur more than once in a source, so an occurrence is known by its place: the number of
a root, the number of a part of that root, and so on down to the node.  One place is an initial part
of another exactly if it encloses it, and the lexicographic order of places is the order in which
nodes are visited.  The route: the nodes below one node first, by induction over its parts, then the
nodes below a list of roots.
-/

namespace ElementCatalog.Source

/-- The numbers of the parts on the way down to a node. -/
abbrev Place := List Nat

namespace Place

/-- A place comes before another one: it encloses it, or turns to an earlier part. -/
def Before (p q : Place) : Prop :=
  List.Lex (· < ·) p q

instance (p q : Place) : Decidable (Before p q) :=
  List.Lex.decidableRel _ p q

variable {p q r : Place} {i j : Nat}

/-- Nothing comes before a root. -/
theorem not_before_nil : ¬Before p [] :=
  List.not_lex_nil

/-- A root comes before everything below it. -/
theorem nil_before_cons : Before [] (i :: p) :=
  .nil

/-- Of two places below one node, the first numbers that differ decide. -/
theorem before_cons_iff : Before (i :: p) (j :: q) ↔ i < j ∨ i = j ∧ Before p q :=
  List.cons_lex_cons_iff

/-- Below one part the rest of the way decides. -/
theorem before_cons_self_iff : Before (i :: p) (i :: q) ↔ Before p q := by
  rw [before_cons_iff]
  constructor
  · rintro (h | ⟨-, h⟩)
    · exact absurd h (Nat.lt_irrefl i)
    · exact h
  · exact fun h => Or.inr ⟨rfl, h⟩

/-- No place comes before itself. -/
theorem not_before_self (p : Place) : ¬Before p p :=
  List.lex_irrefl Nat.lt_irrefl p

/-- Places come one after another. -/
theorem Before.trans (hpq : Before p q) (hqr : Before q r) : Before p r :=
  List.lex_trans Nat.lt_trans hpq hqr

/-- Two places come one before the other, or they are the same. -/
theorem before_or_eq_or_before (p q : Place) : Before p q ∨ p = q ∨ Before q p := by
  induction p generalizing q with
  | nil =>
      cases q with
      | nil => exact Or.inr (Or.inl rfl)
      | cons j q => exact Or.inl nil_before_cons
  | cons i p ih =>
      cases q with
      | nil => exact Or.inr (Or.inr nil_before_cons)
      | cons j q =>
          simp only [before_cons_iff, List.cons.injEq]
          rcases Nat.lt_trichotomy i j with hlt | rfl | hlt
          · exact Or.inl (Or.inl hlt)
          · rcases ih q with hbefore | rfl | hbefore
            · exact Or.inl (Or.inr ⟨rfl, hbefore⟩)
            · exact Or.inr (Or.inl ⟨rfl, rfl⟩)
            · exact Or.inr (Or.inr (Or.inr ⟨rfl, hbefore⟩))
          · exact Or.inr (Or.inr (Or.inl hlt))

/-- A place encloses another one: the other one stands further down below it. -/
def Encloses (p q : Place) : Prop :=
  p <+: q ∧ p ≠ q

instance (p q : Place) : Decidable (Encloses p q) :=
  inferInstanceAs (Decidable (_ ∧ _))

/-- What a node encloses is enclosed by everything around the node. -/
theorem Encloses.of_isPrefix (hpq : p <+: q) (hqr : Encloses q r) : Encloses p r := by
  refine ⟨hpq.trans hqr.1, ?_⟩
  rintro rfl
  exact hqr.2 (hqr.1.eq_of_length_le hpq.length_le)

/-- A node comes before everything that it encloses. -/
theorem Encloses.before (h : Encloses p q) : Before p q := by
  obtain ⟨⟨rest, rfl⟩, hne⟩ := h
  cases rest with
  | nil => exact absurd (List.append_nil p).symm hne
  | cons i rest =>
      have hbelow : Before (p ++ []) (p ++ i :: rest) := .append_left _ nil_before_cons p
      rwa [List.append_nil] at hbelow

/-- What comes before a node comes before everything in it. -/
theorem Before.of_isPrefix (hpq : Before p q) (hqr : q <+: r) : Before p r := by
  by_cases heq : q = r
  · exact heq ▸ hpq
  · have henclosed : Encloses q r := ⟨hqr, heq⟩
    exact hpq.trans henclosed.before

/-- Nothing in a node comes before the node. -/
theorem not_before_of_isPrefix (h : p <+: q) : ¬Before q p := fun hbefore =>
  not_before_self q (hbefore.of_isPrefix h)

/-- What encloses a part of a node is the node or encloses it. -/
theorem encloses_concat_iff : Encloses p (q ++ [i]) ↔ p <+: q := by
  rw [Encloses, List.prefix_concat_iff]
  constructor
  · rintro ⟨heq | hpre, hne⟩
    · exact absurd heq hne
    · exact hpre
  · intro hpre
    refine ⟨Or.inr hpre, ?_⟩
    rintro rfl
    exact absurd hpre.length_le (by simp)

/-- Before a part of a node comes what comes before the node, the node, and what stands in its
    earlier parts. -/
theorem before_concat_iff :
    Before q (p ++ [i]) ↔ Before q p ∨ q = p ∨ ∃ j < i, p ++ [j] <+: q := by
  induction p generalizing q with
  | nil =>
      cases q with
      | nil => exact iff_of_true nil_before_cons (Or.inr (Or.inl rfl))
      | cons j q =>
          rw [List.nil_append, before_cons_iff]
          constructor
          · rintro (hlt | ⟨-, hbefore⟩)
            · exact Or.inr (Or.inr ⟨j, hlt, (List.prefix_cons_inj j).mpr List.nil_prefix⟩)
            · exact (not_before_nil hbefore).elim
          · rintro (hbefore | heq | ⟨k, hlt, hpre⟩)
            · exact (not_before_nil hbefore).elim
            · cases heq
            · obtain ⟨rfl, -⟩ := List.cons_prefix_cons.mp hpre
              exact Or.inl hlt
  | cons k p ih =>
      cases q with
      | nil => exact iff_of_true nil_before_cons (Or.inl nil_before_cons)
      | cons j q =>
          simp only [List.cons_append, before_cons_iff, ih, List.cons_prefix_cons, List.cons.injEq]
          constructor
          · rintro (hlt | ⟨rfl, hbefore | heq | ⟨l, hlt, hpre⟩⟩)
            · exact Or.inl (Or.inl hlt)
            · exact Or.inl (Or.inr ⟨rfl, hbefore⟩)
            · exact Or.inr (Or.inl ⟨rfl, heq⟩)
            · exact Or.inr (Or.inr ⟨l, hlt, rfl, hpre⟩)
          · rintro ((hlt | ⟨rfl, hbefore⟩) | ⟨rfl, heq⟩ | ⟨l, hlt, rfl, hpre⟩)
            · exact Or.inl hlt
            · exact Or.inr ⟨rfl, Or.inl hbefore⟩
            · exact Or.inr ⟨rfl, Or.inr (Or.inl heq)⟩
            · exact Or.inr ⟨rfl, Or.inr (Or.inr ⟨l, hlt, hpre⟩)⟩

/-- Before the part after a part comes what comes before this part, and what stands in it. -/
theorem before_next_iff :
    Before q (p ++ [i + 1]) ↔ Before q (p ++ [i]) ∨ p ++ [i] <+: q := by
  rw [before_concat_iff, before_concat_iff]
  constructor
  · rintro (hbefore | heq | ⟨j, hlt, hpre⟩)
    · exact Or.inl (Or.inl hbefore)
    · exact Or.inl (Or.inr (Or.inl heq))
    · rcases Nat.lt_succ_iff_lt_or_eq.mp hlt with hlt | rfl
      · exact Or.inl (Or.inr (Or.inr ⟨j, hlt, hpre⟩))
      · exact Or.inr hpre
  · rintro ((hbefore | heq | ⟨j, hlt, hpre⟩) | hpre)
    · exact Or.inl hbefore
    · exact Or.inr (Or.inl heq)
    · exact Or.inr (Or.inr ⟨j, Nat.lt_succ_of_lt hlt, hpre⟩)
    · exact Or.inr (Or.inr ⟨i, Nat.lt_succ_self i, hpre⟩)

/-- What comes before a place inside a node without standing in the node itself comes before the
    whole node. -/
theorem before_of_not_isPrefix (hrp : r <+: p) (hqp : Before q p) (hrq : ¬r <+: q) : Before q r := by
  induction r generalizing p q with
  | nil => exact absurd List.nil_prefix hrq
  | cons k r ih =>
      obtain ⟨rest, rfl⟩ := hrp
      cases q with
      | nil => exact nil_before_cons
      | cons j q =>
          rw [List.cons_append, before_cons_iff] at hqp
          rw [before_cons_iff]
          rcases hqp with hlt | ⟨rfl, hqp⟩
          · exact Or.inl hlt
          · refine Or.inr ⟨rfl, ih (List.prefix_append r rest) hqp ?_⟩
            exact fun hr => hrq ((List.prefix_cons_inj j).mpr hr)

/-- A value is given at the last of the places at which one is given, or none is given at any. -/
def IsLast {α : Type} (given : Place → α → Prop) : Option α → Prop
  | none => ∀ place value, ¬given place value
  | some value => ∃ last, given last value ∧ ∀ place other, given place other → ¬Before last place

/-- What is given last does not depend on how it is said where values are given. -/
theorem IsLast.congr {α : Type} {given given' : Place → α → Prop} {value : Option α}
    (h : IsLast given value) (hgiven : ∀ place v, given place v ↔ given' place v) :
    IsLast given' value := by
  have heq : given = given' := funext fun place => funext fun v => propext (hgiven place v)
  exact heq ▸ h

/-- Among places in order, what is found from the end is given at the last place that gives
    anything. -/
theorem isLast_findSome? {α : Type} {places : List Place} (hsorted : places.Pairwise Before)
    (give? : Place → Option α) :
    IsLast (fun place value => place ∈ places ∧ give? place = some value)
      (places.reverse.findSome? give?) := by
  cases hfound : places.reverse.findSome? give? with
  | none =>
      rintro place value ⟨hmem, hvalue⟩
      rw [List.findSome?_eq_none_iff.mp hfound place (List.mem_reverse.mpr hmem)] at hvalue
      cases hvalue
  | some value =>
      obtain ⟨later, last, earlier, hsplit, hvalue, hlater⟩ := List.findSome?_eq_some_iff.mp hfound
      have hplaces : places = earlier.reverse ++ last :: later.reverse := by
        rw [← List.reverse_reverse places, hsplit, List.reverse_append, List.reverse_cons,
          List.append_assoc]
        rfl
      rw [hplaces] at hsorted ⊢
      obtain ⟨-, -, hcross⟩ := List.pairwise_append.mp hsorted
      refine ⟨last, ⟨List.mem_append_right _ List.mem_cons_self, hvalue⟩, ?_⟩
      rintro place other ⟨hmem, hother⟩ hbefore
      rcases List.mem_append.mp hmem with hmem | hmem
      · exact not_before_self last (hbefore.trans (hcross place hmem last List.mem_cons_self))
      · rcases List.mem_cons.mp hmem with rfl | hmem
        · exact not_before_self place hbefore
        · rw [hlater place (List.mem_reverse.mp hmem)] at hother
          cases hother

/-- A value is given at the first of the places at which one is given, or none is given at any. -/
def IsFirst {α : Type} (given : Place → α → Prop) : Option α → Prop
  | none => ∀ place value, ¬given place value
  | some value => ∃ first, given first value ∧ ∀ place other, given place other → ¬Before place first

/-- What is given first does not depend on how it is said where values are given. -/
theorem IsFirst.congr {α : Type} {given given' : Place → α → Prop} {value : Option α}
    (h : IsFirst given value) (hgiven : ∀ place v, given place v ↔ given' place v) :
    IsFirst given' value := by
  have heq : given = given' := funext fun place => funext fun v => propext (hgiven place v)
  exact heq ▸ h

/-- Among places in order, what is found first is given at the first place that gives anything. -/
theorem isFirst_findSome? {α : Type} {places : List Place} (hsorted : places.Pairwise Before)
    (give? : Place → Option α) :
    IsFirst (fun place value => place ∈ places ∧ give? place = some value)
      (places.findSome? give?) := by
  cases hfound : places.findSome? give? with
  | none =>
      rintro place value ⟨hmem, hvalue⟩
      rw [List.findSome?_eq_none_iff.mp hfound place hmem] at hvalue
      cases hvalue
  | some value =>
      obtain ⟨earlier, first, later, rfl, hvalue, hearlier⟩ := List.findSome?_eq_some_iff.mp hfound
      obtain ⟨-, hrest, -⟩ := List.pairwise_append.mp hsorted
      refine ⟨first, ⟨List.mem_append_right _ List.mem_cons_self, hvalue⟩, ?_⟩
      rintro place other ⟨hmem, hother⟩ hbefore
      rcases List.mem_append.mp hmem with hmem | hmem
      · rw [hearlier place hmem] at hother
        cases hother
      · rcases List.mem_cons.mp hmem with rfl | hmem
        · exact not_before_self place hbefore
        · exact not_before_self first
            ((List.rel_of_pairwise_cons hrest hmem).trans hbefore)

/-- The places below the entries of a list that are numbered from `start` on, one entry after
    another. -/
def numbered {α : Type} (places : α → List Place) (start : Nat) (entries : List α) : List Place :=
  (entries.zipIdx start).flatMap fun (a, i) => (places a).map (i :: ·)

section Numbered

variable {α : Type} {places : α → List Place} {start : Nat} {entries : List α}

/-- The places of a list are those of its first entry and those of the others. -/
theorem numbered_cons (places : α → List Place) (start : Nat) (a : α) (rest : List α) :
    numbered places start (a :: rest) =
      (places a).map (start :: ·) ++ numbered places (start + 1) rest := by
  rw [numbered, List.zipIdx_cons, List.flatMap_cons]
  rfl

/-- A place in a list is a number of an entry and a place below this entry. -/
theorem mem_numbered {p : Place} :
    p ∈ numbered places start entries ↔
      ∃ i a rest, entries[i]? = some a ∧ rest ∈ places a ∧ p = (start + i) :: rest := by
  induction entries generalizing start with
  | nil => simp [numbered]
  | cons first entries ih =>
      rw [numbered_cons, List.mem_append, List.mem_map, ih]
      constructor
      · rintro (⟨rest, hrest, rfl⟩ | ⟨i, a, rest, ha, hrest, rfl⟩)
        · exact ⟨0, first, rest, rfl, hrest, rfl⟩
        · exact ⟨i + 1, a, rest, ha, hrest, by rw [Nat.add_assoc, Nat.add_comm 1 i]⟩
      · rintro ⟨i, a, rest, ha, hrest, rfl⟩
        cases i with
        | zero =>
            cases ha
            exact Or.inl ⟨rest, hrest, rfl⟩
        | succ i =>
            exact Or.inr ⟨i, a, rest, ha, hrest, by rw [Nat.add_assoc, Nat.add_comm 1 i]⟩

/-- Entries whose own places are in order have their places in order. -/
theorem pairwise_numbered (h : ∀ a ∈ entries, (places a).Pairwise Before) (start : Nat) :
    (numbered places start entries).Pairwise Before := by
  induction entries generalizing start with
  | nil => exact List.Pairwise.nil
  | cons first entries ih =>
      obtain ⟨hfirst, hrest⟩ := List.forall_mem_cons.mp h
      rw [numbered_cons, List.pairwise_append]
      refine ⟨?_, ih hrest (start + 1), ?_⟩
      · rw [List.pairwise_map]
        exact hfirst.imp fun hpq => before_cons_self_iff.mpr hpq
      · intro p hp q hq
        obtain ⟨p, -, rfl⟩ := List.mem_map.mp hp
        obtain ⟨i, a, q, -, -, rfl⟩ := mem_numbered.mp hq
        exact before_cons_iff.mpr (Or.inl (by omega))

end Numbered

end Place

namespace Node

/-! ## Nodes at places -/

/-- The node at a place below a node. -/
def below? (n : Node) : Place → Option Node
  | [] => some n
  | i :: rest => n.children[i]?.bind fun c => c.below? rest

/-- The node at a place below some roots. -/
def at? (roots : List Node) : Place → Option Node
  | [] => none
  | i :: rest => roots[i]?.bind fun n => n.below? rest

/-- The way to a node may be followed in two parts. -/
theorem below?_append (n : Node) (p q : Place) :
    n.below? (p ++ q) = (n.below? p).bind fun c => c.below? q := by
  induction p generalizing n with
  | nil => rfl
  | cons i p ih =>
      rw [List.cons_append, below?, below?]
      cases n.children[i]? with
      | none => rfl
      | some c => exact ih c

/-- The way from the roots to a node may be followed in two parts. -/
theorem at?_append (roots : List Node) {p : Place} (hp : p ≠ []) (q : Place) :
    at? roots (p ++ q) = (at? roots p).bind fun c => c.below? q := by
  cases p with
  | nil => exact absurd rfl hp
  | cons i p =>
      rw [List.cons_append, at?, at?]
      cases roots[i]? with
      | none => rfl
      | some n => exact n.below?_append p q

/-- At the places one step below a node stand its parts. -/
theorem at?_concat {roots : List Node} {p : Place} {n : Node} (h : at? roots p = some n) (i : Nat) :
    at? roots (p ++ [i]) = n.children[i]? := by
  have hp : p ≠ [] := by
    rintro rfl
    cases h
  rw [at?_append roots hp, h, Option.bind_some, below?]
  cases n.children[i]? with
  | none => rfl
  | some c => rfl

/-- Of the nodes below some roots, those that come before the end of a node come before the node or
    stand in it. -/
theorem before_end_iff {roots : List Node} {p q : Place} {n m : Node} (hn : at? roots p = some n)
    (hm : at? roots q = some m) :
    q.Before (p ++ [n.children.length]) ↔ q.Before p ∨ p <+: q := by
  rw [Place.before_concat_iff]
  constructor
  · rintro (hbefore | rfl | ⟨j, -, hpre⟩)
    · exact Or.inl hbefore
    · exact Or.inr (List.prefix_refl q)
    · exact Or.inr ((List.prefix_append p [j]).trans hpre)
  · rintro (hbefore | ⟨rest, rfl⟩)
    · exact Or.inl hbefore
    · cases rest with
      | nil => exact Or.inr (Or.inl (List.append_nil p))
      | cons j rest =>
          have hp : p ≠ [] := by
            rintro rfl
            cases hn
          rw [at?_append roots hp, hn, Option.bind_some, below?] at hm
          obtain ⟨c, hc, -⟩ := Option.bind_eq_some_iff.mp hm
          obtain ⟨hlt, -⟩ := List.getElem?_eq_some_iff.mp hc
          exact Or.inr (Or.inr ⟨j, hlt, rest, (List.append_cons p j rest).symm⟩)

/-! ## All places -/

/-- The places below a node, its own one first, in the order of visits. -/
def places (n : Node) : List Place :=
  [] :: n.children.attach.zipIdx.flatMap fun ⟨⟨c, _⟩, i⟩ => (places c).map (i :: ·)
termination_by sizeOf n
decreasing_by exact sizeOf_lt_of_mem n c ‹_›

/-- The places below some roots that are numbered from `start` on, in the order of visits. -/
def placesFrom (start : Nat) (roots : List Node) : List Place :=
  (roots.zipIdx start).flatMap fun (n, i) => n.places.map (i :: ·)

/-- The places below some roots, in the order of visits. -/
def placesIn (roots : List Node) : List Place :=
  placesFrom 0 roots

/-- The places below a node are its own one and those of its parts. -/
theorem places_eq (n : Node) : n.places = [] :: placesIn n.children := by
  rw [places, placesIn, placesFrom]
  congr 1
  have hzip : n.children.zipIdx = n.children.attach.zipIdx.map fun (c, i) => (c.1, i) := by
    conv => lhs; rw [← List.attach_map_subtype_val n.children, List.zipIdx_map]
    rfl
  rw [hzip, List.flatMap_map]

/-- The places of a list of roots are those of its first root and those of the others. -/
theorem placesFrom_cons (start : Nat) (n : Node) (rest : List Node) :
    placesFrom start (n :: rest) = n.places.map (start :: ·) ++ placesFrom (start + 1) rest :=
  Place.numbered_cons places start n rest

/-- A place in a list is a number of a root and a place below this root. -/
theorem mem_placesFrom {start : Nat} {roots : List Node} {p : Place} :
    p ∈ placesFrom start roots ↔
      ∃ i n rest, roots[i]? = some n ∧ rest ∈ n.places ∧ p = (start + i) :: rest :=
  Place.mem_numbered

/-- The places below a node are those at which there is a node. -/
theorem mem_places_iff {n : Node} {p : Place} : p ∈ n.places ↔ (n.below? p).isSome = true := by
  induction p generalizing n with
  | nil =>
      rw [places_eq]
      exact iff_of_true List.mem_cons_self rfl
  | cons i p ih =>
      rw [places_eq, List.mem_cons, placesIn, mem_placesFrom, below?]
      simp only [List.cons_ne_nil, false_or, Nat.zero_add, List.cons.injEq]
      constructor
      · rintro ⟨j, c, rest, hc, hrest, rfl, rfl⟩
        rw [hc]
        exact ih.mp hrest
      · intro h
        cases hc : n.children[i]? with
        | none => rw [hc] at h; cases h
        | some c =>
            rw [hc] at h
            exact ⟨i, c, p, hc, ih.mpr h, rfl, rfl⟩

/-- The places below some roots are those at which there is a node. -/
theorem mem_placesIn_iff {roots : List Node} {p : Place} :
    p ∈ placesIn roots ↔ (at? roots p).isSome = true := by
  rw [placesIn, mem_placesFrom]
  cases p with
  | nil => simp [at?]
  | cons i p =>
      simp only [Nat.zero_add, List.cons.injEq, at?]
      constructor
      · rintro ⟨j, n, rest, hn, hrest, rfl, rfl⟩
        rw [hn]
        exact mem_places_iff.mp hrest
      · intro h
        cases hn : roots[i]? with
        | none => rw [hn] at h; cases h
        | some n =>
            rw [hn] at h
            exact ⟨i, n, p, hn, mem_places_iff.mpr h, rfl, rfl⟩

/-! ## Places in the order of visits -/

section Order

variable {P : Node → Prop}

/-- What holds of a node whenever it holds of its parts holds of every node. -/
theorem induction (step : ∀ n, (∀ c ∈ n.children, P c) → P n) (n : Node) : P n :=
  step n fun c _ => induction step c
termination_by sizeOf n
decreasing_by exact sizeOf_lt_of_mem n c ‹_›

end Order

/-- Roots whose own places are in order have their places in order. -/
theorem pairwise_placesFrom {roots : List Node}
    (h : ∀ n ∈ roots, n.places.Pairwise Place.Before) (start : Nat) :
    (placesFrom start roots).Pairwise Place.Before :=
  Place.pairwise_numbered h start

/-- The places below a node are in order. -/
theorem pairwise_places (n : Node) : n.places.Pairwise Place.Before := by
  induction n using Node.induction with
  | step n ih =>
      rw [places_eq, List.pairwise_cons]
      refine ⟨fun p hp => ?_, pairwise_placesFrom ih 0⟩
      obtain ⟨i, c, rest, -, -, rfl⟩ := mem_placesFrom.mp hp
      exact Place.nil_before_cons

/-- The places below some roots are in order. -/
theorem pairwise_placesIn (roots : List Node) : (placesIn roots).Pairwise Place.Before :=
  pairwise_placesFrom (fun n _ => n.pairwise_places) 0

/-- Roots whose own places lead to their nodes in pre-order do so one after another. -/
theorem map_at?_placesFrom (before : List Node) {roots : List Node}
    (h : ∀ n ∈ roots, n.places.map n.below? = n.preorder.map some) :
    (placesFrom before.length roots).map (at? (before ++ roots)) =
      (roots.flatMap preorder).map some := by
  induction roots generalizing before with
  | nil => rfl
  | cons root roots ih =>
      obtain ⟨hroot, hroots⟩ := List.forall_mem_cons.mp h
      have hfirst : ∀ p, at? (before ++ root :: roots) (before.length :: p) = root.below? p := by
        intro p
        rw [at?, List.getElem?_append_right (Nat.le_refl _), Nat.sub_self]
        rfl
      have hrest := ih (before ++ [root]) hroots
      rw [List.append_assoc, List.length_append] at hrest
      rw [placesFrom_cons, List.map_append, List.flatMap_cons, List.map_append, List.map_map]
      congr 1
      rw [← hroot]
      exact List.map_congr_left fun p _ => hfirst p

/-- At the places below a node stand the nodes below it, in pre-order. -/
theorem map_below?_places (n : Node) : n.places.map n.below? = n.preorder.map some := by
  induction n using Node.induction with
  | step n ih =>
      rw [places_eq, preorder_eq, List.map_cons, List.map_cons]
      congr 1
      refine Eq.trans ?_ (map_at?_placesFrom [] ih)
      refine List.map_congr_left fun p hp => ?_
      obtain ⟨i, c, rest, -, -, rfl⟩ := mem_placesFrom.mp hp
      rfl

/-- At the places below some roots stand the nodes below them, in pre-order. -/
theorem map_at?_placesIn (roots : List Node) :
    (placesIn roots).map (at? roots) = (roots.flatMap preorder).map some :=
  map_at?_placesFrom [] fun n _ => n.map_below?_places

end Node

namespace Module

/-- The items of a module as nodes. -/
def roots (m : Module) : List Node :=
  m.items.map .stmt

/-- The places of a module, in the order of visits. -/
def places (m : Module) : List Place :=
  Node.placesIn m.roots

/-- The node at a place of a module. -/
def nodeAt? (m : Module) (p : Place) : Option Node :=
  Node.at? m.roots p

/-- At the places of a module stand its nodes, in pre-order. -/
theorem map_nodeAt?_places (m : Module) : m.places.map m.nodeAt? = m.nodes.map some := by
  rw [nodes, ← List.flatMap_map]
  exact Node.map_at?_placesIn m.roots

/-- What is read at the places of a module, node by node, is what is read of its nodes. -/
theorem flatMap_places {β : Type} (m : Module) (read : Node → List β) :
    (m.places.flatMap fun p => ((m.nodeAt? p).map read).getD []) = m.nodes.flatMap read := by
  calc (m.places.flatMap fun p => ((m.nodeAt? p).map read).getD [])
      = (m.places.map m.nodeAt?).flatMap fun n => (n.map read).getD [] := by
        rw [List.flatMap_map]
    _ = m.nodes.flatMap read := by
        rw [map_nodeAt?_places, List.flatMap_map]
        rfl

end Module

end ElementCatalog.Source
