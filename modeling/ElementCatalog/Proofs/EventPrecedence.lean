import ElementCatalog.Proofs.DictionaryWrites
import ElementCatalog.Proofs.DispatchWalk
import Mathlib.Data.List.Induction
import Mathlib.Data.List.Perm.Basic

/-!
# Event precedence — which descriptor of an event counts

Events are named by the documentation, by callbacks and by dispatch calls, in this order.  Toward:
the names of a component's events stand where they first occur, and each event is the last of its
name, so nothing of an earlier source is left in it.  The route:

* the events under their names are told apart by the names in the order of first occurrence and by
  the last event of each name (`names_lastByName`, `find?_lastByName`, `values_lastByName_inj`);
* one event more changes nothing but the place of its name if a later one has its name
  (`sameUpToPlace_insert`), and exactly when it changes nothing at all is said by `Dispensable`;
* what is dispatched depends neither on the documentation nor on the shape (`visit_congr`).
-/

namespace ElementCatalog

open Source (ClassMember Node Position)

/-! ## First occurrences -/

/-- First occurrences are different from each other. -/
theorem nodup_eraseDups {α : Type} [DecidableEq α] (l : List α) : l.eraseDups.Nodup := by
  induction l using List.reverseRecOn with
  | nil => exact List.nodup_nil
  | append_singleton l a ih =>
      rw [eraseDups_concat]
      by_cases h : a ∈ l
      · rw [if_pos h]
        exact ih
      · rw [if_neg h]
        refine List.nodup_append.mpr ⟨ih, List.nodup_singleton a, ?_⟩
        rintro b hb c hc rfl
        rw [List.mem_singleton.mp hc, List.mem_eraseDups] at hb
        exact h hb

/-- Leaving some elements out leaves out their first occurrences. -/
theorem eraseDups_filter {α : Type} [DecidableEq α] (keep : α → Bool) (l : List α) :
    (l.filter keep).eraseDups = l.eraseDups.filter keep := by
  induction l using List.reverseRecOn with
  | nil => rfl
  | append_singleton l a ih =>
      rw [List.filter_append, eraseDups_concat, List.filter_singleton]
      cases hkeep : keep a with
      | false =>
          rw [Bool.cond_false, List.append_nil, ih]
          by_cases h : a ∈ l
          · rw [if_pos h]
          · rw [if_neg h, List.filter_append, List.filter_singleton, hkeep, Bool.cond_false,
              List.append_nil]
      | true =>
          rw [Bool.cond_true, eraseDups_concat, ih]
          by_cases h : a ∈ l
          · rw [if_pos h, if_pos (List.mem_filter.mpr ⟨h, hkeep⟩)]
          · rw [if_neg h, if_neg (fun hmem => h (List.mem_filter.mp hmem).1), List.filter_append,
              List.filter_singleton, hkeep, Bool.cond_true]

namespace Dictionary

variable {α : Type} {entries : Dictionary α}

/-- Where every name stands once, the values are what is found under the names. -/
theorem values_eq_filterMap (h : (names entries).Nodup) :
    values entries = (names entries).filterMap (find? entries) := by
  have hfind : ∀ p ∈ entries, find? entries p.1 = some p.2 := fun p hp => find?_of_mem h hp
  rw [values, names, List.filterMap_map, ← List.filterMap_eq_map]
  exact List.filterMap_congr fun p hp => (hfind p hp).symm

end Dictionary

namespace Surface

/-! ## Events under their names -/

/-- The names of events, in the order in which they first occur. -/
def firstNames (events : List EventDescriptor) : List String :=
  (events.map (·.name)).eraseDups

/-- The last event of a name. -/
def lastOf? (events : List EventDescriptor) (name : String) : Option EventDescriptor :=
  events.reverse.find? (·.name == name)

variable {events earlier later : List EventDescriptor} {e : EventDescriptor} {name : String}

/-- The last event of a name is the last of the later events, or else of the earlier ones. -/
theorem lastOf?_append (earlier later : List EventDescriptor) (name : String) :
    lastOf? (earlier ++ later) name = (lastOf? later name).or (lastOf? earlier name) := by
  rw [lastOf?, List.reverse_append, List.find?_append]
  rfl

/-- The last of a single event. -/
theorem lastOf?_singleton (e : EventDescriptor) (name : String) :
    lastOf? [e] name = if name = e.name then some e else none := by
  rw [lastOf?, List.reverse_singleton, List.find?_singleton]
  by_cases h : name = e.name
  · rw [if_pos h, if_pos (beq_iff_eq.mpr h.symm)]
  · rw [if_neg h, if_neg (fun heq => h (beq_iff_eq.mp heq).symm)]

/-- There is a last event of every name that occurs. -/
theorem isSome_lastOf?_iff : (lastOf? events name).isSome ↔ ∃ e ∈ events, e.name = name := by
  rw [lastOf?, List.find?_isSome]
  simp only [List.mem_reverse, beq_iff_eq]

/-- The last event of a name is followed by none of its name. -/
theorem lastOf?_eq_some_iff :
    lastOf? events name = some e ↔
      e.name = name ∧
        ∃ before after, events = before ++ e :: after ∧ ∀ x ∈ after, x.name ≠ name := by
  rw [lastOf?, List.find?_eq_some_iff_append]
  simp only [beq_iff_eq, Bool.not_eq_true', beq_eq_false_iff_ne, ne_eq]
  refine and_congr_right fun _ => ⟨?_, ?_⟩
  · rintro ⟨after, before, hsplit, hafter⟩
    refine ⟨before.reverse, after.reverse, ?_, fun x hx => hafter x (List.mem_reverse.mp hx)⟩
    rw [← List.reverse_reverse events, hsplit, List.reverse_append, List.reverse_cons,
      List.append_assoc]
    rfl
  · rintro ⟨before, after, rfl, hafter⟩
    refine ⟨after.reverse, before.reverse, ?_, fun x hx => hafter x (List.mem_reverse.mp hx)⟩
    rw [List.reverse_append, List.reverse_cons, List.append_assoc]
    rfl

/-- What is last of a name is one of the events and has the name. -/
theorem name_of_lastOf? (h : lastOf? events name = some e) : e.name = name :=
  (lastOf?_eq_some_iff.mp h).1

/-- One event more is written over the others. -/
theorem lastByName_concat (events : List EventDescriptor) (e : EventDescriptor) :
    lastByName (events ++ [e]) = Dictionary.set (lastByName events) e.name e := by
  rw [lastByName, List.foldl_append]
  rfl

/-- Under a name stands the last event of this name. -/
theorem find?_lastByName (events : List EventDescriptor) (name : String) :
    Dictionary.find? (lastByName events) name = lastOf? events name := by
  induction events using List.reverseRecOn with
  | nil => rfl
  | append_singleton events e ih =>
      rw [lastByName_concat, Dictionary.find?_set, lastOf?_append, lastOf?_singleton, ih]
      by_cases h : name = e.name
      · rw [if_pos h, if_pos h, Option.some_or]
      · rw [if_neg h, if_neg h, Option.none_or]

/-- The names stand in the order in which they first occur. -/
theorem names_lastByName (events : List EventDescriptor) :
    Dictionary.names (lastByName events) = firstNames events := by
  have hwrites : lastByName events = Dictionary.setAll [] (events.map fun e => (e.name, e)) := by
    rw [lastByName, Dictionary.setAll, List.foldl_map]
  rw [hwrites, Dictionary.names_setAll, Dictionary.names, List.map_map]
  rfl

/-- The events under their names are the last ones of the names. -/
theorem values_lastByName (events : List EventDescriptor) :
    Dictionary.values (lastByName events) = (firstNames events).filterMap (lastOf? events) := by
  have hnodup : (Dictionary.names (lastByName events)).Nodup := by
    rw [names_lastByName]
    exact nodup_eraseDups _
  rw [Dictionary.values_eq_filterMap hnodup, names_lastByName]
  exact List.filterMap_congr fun name _ => find?_lastByName events name

/-- An event is under its name exactly if it is the last one of the name. -/
theorem mem_values_lastByName_iff :
    e ∈ Dictionary.values (lastByName events) ↔ lastOf? events e.name = some e := by
  rw [values_lastByName, List.mem_filterMap]
  constructor
  · rintro ⟨name, -, hlast⟩
    rw [name_of_lastOf? hlast]
    exact hlast
  · intro hlast
    obtain ⟨x, hx, hname⟩ := isSome_lastOf?_iff.mp (Option.isSome_of_eq_some hlast)
    exact ⟨e.name, List.mem_eraseDups.mpr (List.mem_map.mpr ⟨x, hx, hname⟩), hlast⟩

/-- Names that occur, read back from the last events of these names. -/
theorem map_name_filterMap_lastOf? {names : List String}
    (h : ∀ name ∈ names, ∃ x ∈ events, x.name = name) :
    (names.filterMap (lastOf? events)).map (·.name) = names := by
  induction names with
  | nil => rfl
  | cons name rest ih =>
      obtain ⟨hname, hrest⟩ := List.forall_mem_cons.mp h
      obtain ⟨last, hlast⟩ := Option.isSome_iff_exists.mp (isSome_lastOf?_iff.mpr hname)
      rw [List.filterMap_cons_some hlast, List.map_cons, name_of_lastOf? hlast, ih hrest]

/-- The events under their names have these names. -/
theorem map_name_values_lastByName (events : List EventDescriptor) :
    (Dictionary.values (lastByName events)).map (·.name) = firstNames events := by
  rw [values_lastByName]
  exact map_name_filterMap_lastOf? fun name hname =>
    List.mem_map.mp (List.mem_eraseDups.mp hname)

/-- The names that first occur and the last event of each name make up the events under their
    names, and can be told from them. -/
theorem values_lastByName_inj {others : List EventDescriptor} :
    Dictionary.values (lastByName events) = Dictionary.values (lastByName others) ↔
      firstNames events = firstNames others ∧
        ∀ name, lastOf? events name = lastOf? others name := by
  constructor
  · intro h
    refine ⟨?_, fun name => Option.ext fun e => ?_⟩
    · rw [← map_name_values_lastByName, h, map_name_values_lastByName]
    · have hmem : e ∈ Dictionary.values (lastByName events) ↔
          e ∈ Dictionary.values (lastByName others) := by rw [h]
      rw [mem_values_lastByName_iff, mem_values_lastByName_iff] at hmem
      constructor
      · intro hlast
        have hname := name_of_lastOf? hlast
        exact hname ▸ hmem.mp (hname.symm ▸ hlast)
      · intro hlast
        have hname := name_of_lastOf? hlast
        exact hname ▸ hmem.mpr (hname.symm ▸ hlast)
  · rintro ⟨hnames, hlast⟩
    rw [values_lastByName, values_lastByName, hnames]
    exact List.filterMap_congr fun name _ => hlast name

/-! ## One event more -/

/-- Two lists of events are the same except for the place of one name. -/
structure SameUpToPlace (name : String) (events others : List EventDescriptor) : Prop where
  perm : events.Perm others
  rest : events.filter (·.name != name) = others.filter (·.name != name)

/-- An event among others is the last one of its name only if no later one has its name. -/
theorem lastOf?_insert (earlier later : List EventDescriptor) (e : EventDescriptor)
    (name : String) :
    lastOf? (earlier ++ e :: later) name =
      (lastOf? later name).or (if name = e.name then some e else lastOf? earlier name) := by
  rw [List.append_cons, lastOf?_append, lastOf?_append, lastOf?_singleton]
  by_cases h : name = e.name
  · rw [if_pos h, if_pos h, Option.some_or]
  · rw [if_neg h, if_neg h, Option.none_or]

/-- Without the events of a name, the events under their names are the others. -/
theorem filter_values_lastByName (events : List EventDescriptor) (name : String) :
    (Dictionary.values (lastByName events)).filter (·.name != name) =
      ((events.map (·.name)).filter (· != name)).eraseDups.filterMap (lastOf? events) := by
  rw [values_lastByName, eraseDups_filter]
  change _ = ((firstNames events).filter (· != name)).filterMap (lastOf? events)
  generalize firstNames events = names
  induction names with
  | nil => rfl
  | cons first rest ih =>
      cases hlast : lastOf? events first with
      | none =>
          rw [List.filterMap_cons_none hlast, ih, List.filter_cons]
          split
          · rw [List.filterMap_cons_none hlast]
          · rfl
      | some last =>
          rw [List.filterMap_cons_some hlast, List.filter_cons, List.filter_cons, ih,
            name_of_lastOf? hlast]
          split
          · rw [List.filterMap_cons_some hlast]
          · rfl

/-- An event of which there is a later one of its name changes at most the place of this name. -/
theorem sameUpToPlace_insert (h : ∃ x ∈ later, x.name = e.name) :
    SameUpToPlace e.name (Dictionary.values (lastByName (earlier ++ e :: later)))
      (Dictionary.values (lastByName (earlier ++ later))) := by
  have hlast : ∀ name, lastOf? (earlier ++ e :: later) name = lastOf? (earlier ++ later) name := by
    intro name
    rw [lastOf?_insert, lastOf?_append]
    by_cases hname : name = e.name
    · obtain ⟨last, hlast⟩ := Option.isSome_iff_exists.mp (isSome_lastOf?_iff.mpr h)
      rw [hname, hlast, Option.some_or, Option.some_or]
    · rw [if_neg hname]
  have hnodup : ∀ l, (Dictionary.values (lastByName l)).Nodup := by
    intro l
    refine List.Nodup.of_map (·.name) ?_
    rw [map_name_values_lastByName]
    exact nodup_eraseDups _
  refine ⟨(List.perm_ext_iff_of_nodup (hnodup _) (hnodup _)).mpr fun x => ?_, ?_⟩
  · rw [mem_values_lastByName_iff, mem_values_lastByName_iff, hlast]
  · rw [filter_values_lastByName, filter_values_lastByName, funext hlast, List.map_append,
      List.map_append, List.map_cons, List.filter_append, List.filter_append, List.filter_cons,
      bne_self_eq_false, if_neg Bool.false_ne_true]

/-- An event can be left out among earlier and later ones: a later one of its name counts, or an
    earlier one is the same in all fields; and its name has its place from an earlier event, or the
    first new name after it is this name. -/
structure Dispensable (earlier : List EventDescriptor) (e : EventDescriptor)
    (later : List EventDescriptor) : Prop where
  value : (∃ x ∈ later, x.name = e.name) ∨ lastOf? earlier e.name = some e
  place : (∃ x ∈ earlier, x.name = e.name) ∨
    ((later.map (·.name)).find? fun name => name ∉ earlier.map (·.name)) = some e.name

/-- A name leaves the others in their order exactly if it occurred before, or if it is the first new
    one after it. -/
theorem eraseDups_insert_iff {α : Type} [DecidableEq α] {before after : List α} {a : α} :
    (before ++ a :: after).eraseDups = (before ++ after).eraseDups ↔
      a ∈ before ∨ (after.find? fun b => b ∉ before) = some a := by
  have hnew : after.removeAll before = after.filter fun b => b ∉ before := by
    simp [List.removeAll]
  rw [List.eraseDups_append, List.eraseDups_append, List.append_cancel_left_eq, hnew,
    ← List.head?_filter]
  have hcons : (a :: after).removeAll before =
      if a ∈ before then after.filter (fun b => b ∉ before)
      else a :: after.filter (fun b => b ∉ before) := by
    simp only [List.removeAll, List.filter_cons]
    by_cases h : a ∈ before <;> simp [h]
  rw [hcons]
  by_cases h : a ∈ before
  · rw [if_pos h]
    exact iff_of_true rfl (Or.inl h)
  · rw [if_neg h, List.eraseDups_cons]
    simp only [h, false_or]
    cases after.filter (fun b => b ∉ before) with
    | nil => simp
    | cons b rest =>
        rw [List.head?_cons, List.eraseDups_cons]
        constructor
        · intro heq
          exact congrArg some (List.cons.inj heq).1.symm
        · intro heq
          obtain rfl := Option.some.inj heq
          rw [List.filter_cons, beq_self_eq_true]
          rfl

/-- Leaving an event out changes nothing exactly if it can be left out. -/
theorem values_insert_eq_iff :
    Dictionary.values (lastByName (earlier ++ later)) =
        Dictionary.values (lastByName (earlier ++ e :: later)) ↔
      Dispensable earlier e later := by
  rw [eq_comm, values_lastByName_inj, firstNames, firstNames, List.map_append, List.map_append,
    List.map_cons, eraseDups_insert_iff]
  have hvalue : (∀ name, lastOf? (earlier ++ e :: later) name = lastOf? (earlier ++ later) name) ↔
      (∃ x ∈ later, x.name = e.name) ∨ lastOf? earlier e.name = some e := by
    rw [← isSome_lastOf?_iff]
    constructor
    · intro h
      have hname := h e.name
      rw [lastOf?_insert, lastOf?_append, if_pos rfl] at hname
      cases hlast : lastOf? later e.name with
      | some last => exact Or.inl rfl
      | none =>
          rw [hlast, Option.none_or, Option.none_or] at hname
          exact Or.inr hname.symm
    · intro h name
      rw [lastOf?_insert, lastOf?_append]
      by_cases hname : name = e.name
      · subst hname
        rw [if_pos rfl]
        rcases h with hsome | hearlier
        · obtain ⟨last, hlast⟩ := Option.isSome_iff_exists.mp hsome
          rw [hlast, Option.some_or, Option.some_or]
        · rw [hearlier]
      · rw [if_neg hname]
  rw [hvalue]
  constructor
  · rintro ⟨hplace, hvalue⟩
    exact ⟨hvalue, hplace.imp_left List.mem_map.mp⟩
  · rintro ⟨hvalue, hplace⟩
    exact ⟨hplace.imp_left List.mem_map.mpr, hvalue⟩

/-! ## What the walk depends on -/

/-- Entering a node asks a component for nothing but its file. -/
theorem enter_congr {s t : Surface} (h : s.file = t.file) (w : Workspace)
    (anchors : List (List Position)) (walk : Walk) (n : Node) :
    walk.enter w s anchors n = walk.enter w t anchors n := by
  obtain ⟨_, file, _, _, _, _, _⟩ := s
  obtain ⟨_, _, _, _, _, _, _⟩ := t
  obtain rfl : file = _ := h
  rfl

/-- Walking through a node asks a component for nothing but its file. -/
theorem visit_congr {s t : Surface} (h : s.file = t.file) (w : Workspace) (n : Node) :
    ∀ (anchors : List (List Position)) (walk : Walk),
      walk.visit w s anchors n = walk.visit w t anchors n := by
  induction n using Node.induction with
  | step n ih =>
      intro anchors walk
      have hparts : n.children.foldl (Walk.visit w s (innerAnchors anchors n))
            (walk.enter w s anchors n) =
          n.children.foldl (Walk.visit w t (innerAnchors anchors n))
            (walk.enter w t anchors n) := by
        rw [enter_congr h]
        exact List.foldl_ext _ _ _ fun inside c hc => ih c hc _ inside
      rw [visit_eq, visit_eq, hparts]

/-- Walking through a member of a class asks a component for nothing but its file. -/
theorem visitMember_congr {s t : Surface} (h : s.file = t.file) (w : Workspace) :
    Walk.visitMember w s = Walk.visitMember w t := by
  funext walk m
  rw [Walk.visitMember, Walk.visitMember, visit_congr h]

/-- What is dispatched depends on the file, the class and the body of a component alone. -/
theorem dispatchedEvents_congr {s t : Surface} (hfile : s.file = t.file)
    (hclass : s.implementedBy = t.implementedBy) (hbody : s.body = t.body) (w : Workspace) :
    dispatchedEvents w s = dispatchedEvents w t := by
  simp only [dispatchedEvents, hclass, hbody, visit_congr hfile, visitMember_congr hfile]

/-! ## The three sources -/

/-- An event is the last one of its name among some events. -/
def IsLastOfName (events : List EventDescriptor) (e : EventDescriptor) : Prop :=
  ∃ before after, events = before ++ e :: after ∧ ∀ x ∈ after, x.name ≠ e.name

/-- What is found last under its own name is the last one of its name. -/
theorem isLastOfName_iff : IsLastOfName events e ↔ lastOf? events e.name = some e := by
  rw [lastOf?_eq_some_iff]
  exact (and_iff_right rfl).symm

/-- The names of a component's events are those that its sources name, in the order in which they
    first occur there. -/
theorem map_name_events (w : Workspace) (s : Surface) :
    (s.events w).map (·.name) =
      ((documentedEvents s ++ callbackEvents w s ++ dispatchedEvents w s).map (·.name)).eraseDups :=
  map_name_values_lastByName _

/-- Every name that a source names is the name of an event. -/
theorem exists_mem_events {w : Workspace} {s : Surface}
    (h : e ∈ documentedEvents s ++ callbackEvents w s ++ dispatchedEvents w s) :
    ∃ x ∈ s.events w, x.name = e.name := by
  refine List.mem_map.mp ?_
  rw [map_name_events, List.mem_eraseDups]
  exact List.mem_map_of_mem h

/-- The events of a component are the last ones of their names, from whatever source. -/
theorem isLastOfName_of_mem_events {w : Workspace} {s : Surface} (h : e ∈ s.events w) :
    IsLastOfName (documentedEvents s ++ callbackEvents w s ++ dispatchedEvents w s) e :=
  isLastOfName_iff.mpr (mem_values_lastByName_iff.mp h)

/-- The last event of its name is the last one of the later events, or else none of these has its
    name and it is the last one of the earlier events. -/
theorem IsLastOfName.of_append (h : IsLastOfName (earlier ++ later) e) :
    IsLastOfName later e ∨ (∀ x ∈ later, x.name ≠ e.name) ∧ IsLastOfName earlier e := by
  rw [isLastOfName_iff, lastOf?_append, Option.or_eq_some_iff] at h
  rcases h with hlater | ⟨hnone, hearlier⟩
  · exact Or.inl (isLastOfName_iff.mpr hlater)
  · refine Or.inr ⟨fun x hx hname => ?_, isLastOfName_iff.mpr hearlier⟩
    have hsome := isSome_lastOf?_iff.mpr ⟨x, hx, hname⟩
    rw [hnone] at hsome
    cases hsome

/-- The last event of its name is one of the events. -/
theorem IsLastOfName.mem (h : IsLastOfName events e) : e ∈ events := by
  obtain ⟨before, after, rfl, -⟩ := h
  exact List.mem_append_right before List.mem_cons_self

/-- What the documentation names has this source. -/
theorem source_of_mem_documentedEvents {s : Surface} (h : e ∈ documentedEvents s) :
    e.source = .documentation := by
  obtain ⟨fired, -, rfl⟩ := List.mem_map.mp h
  rfl

/-- What a callback stands for has this source. -/
theorem source_of_callbackEvent? {w : Workspace} {member : ShapeMember}
    (h : callbackEvent? w member = some e) : e.source = .callback := by
  rw [callbackEvent?] at h
  split at h
  · cases h
    rfl
  · cases h

/-- What is dispatched at a place is an event value with documentation. -/
theorem OfPlace.exists_toEvent {w : Workspace} {s : Surface} {roots : List Node}
    {place : Source.Place} {given : List EventDescriptor} (h : OfPlace w s roots place given)
    (he : e ∈ given) : ∃ (value : Construction) (docs : DocBlock), e = value.toEvent docs := by
  cases h with
  | value | held => exact ⟨_, _, List.mem_singleton.mp he⟩
  | unknown | other => cases he

/-- In related lists every element on the right is related to one on the left. -/
theorem exists_of_mem_forall₂ {α β : Type} {R : α → β → Prop} {as : List α} {bs : List β}
    (h : List.Forall₂ R as bs) {b : β} (hb : b ∈ bs) : ∃ a ∈ as, R a b := by
  induction h with
  | nil => cases hb
  | cons hfirst _ ih =>
      rcases List.mem_cons.mp hb with rfl | hrest
      · exact ⟨_, List.mem_cons_self, hfirst⟩
      · obtain ⟨a, ha, hab⟩ := ih hrest
        exact ⟨a, List.mem_cons_of_mem _ ha, hab⟩

/-- In related lists every element on the left is related to one on the right. -/
theorem exists_of_forall₂_mem {α β : Type} {R : α → β → Prop} {as : List α} {bs : List β}
    (h : List.Forall₂ R as bs) {a : α} (ha : a ∈ as) : ∃ b ∈ bs, R a b :=
  exists_of_mem_forall₂ (List.Forall₂.flip (R := flip R) h) ha

/-- What is dispatched is an event value with documentation. -/
theorem exists_toEvent_of_mem_dispatchedEvents {w : Workspace} {s : Surface}
    (h : e ∈ dispatchedEvents w s) :
    ∃ (value : Construction) (docs : DocBlock), e = value.toEvent docs := by
  obtain ⟨all, hall, hevents⟩ := exists_ofPlace_dispatchedEvents w s
  rw [hevents] at h
  obtain ⟨found, hfound, he⟩ := List.mem_flatten.mp h
  obtain ⟨given, hgiven, hfound⟩ := List.mem_flatten.mp hfound
  obtain ⟨roots, -, hroots⟩ := exists_of_mem_forall₂ hall hgiven
  obtain ⟨place, -, hplace⟩ := exists_of_mem_forall₂ hroots hfound
  exact hplace.exists_toEvent he

/-- An event has the last source that names it, and is the last one of its name there. -/
inductive FromLastSource (w : Workspace) (s : Surface) (e : EventDescriptor) : Prop where
  | dispatched (hsource : e.source = .dispatch) (hlast : IsLastOfName (dispatchedEvents w s) e)
  | callback (hsource : e.source = .callback) (hlast : IsLastOfName (callbackEvents w s) e)
    (hdispatched : ∀ x ∈ dispatchedEvents w s, x.name ≠ e.name)
  | documented (hsource : e.source = .documentation) (hlast : IsLastOfName (documentedEvents s) e)
    (hcallbacks : ∀ x ∈ callbackEvents w s, x.name ≠ e.name)
    (hdispatched : ∀ x ∈ dispatchedEvents w s, x.name ≠ e.name)

/-- The events of a component come from the last source that names them. -/
theorem fromLastSource_of_mem_events {w : Workspace} {s : Surface} (h : e ∈ s.events w) :
    FromLastSource w s e := by
  rcases (isLastOfName_of_mem_events h).of_append with hlast | ⟨hdispatched, hearlier⟩
  · obtain ⟨value, docs, heq⟩ := exists_toEvent_of_mem_dispatchedEvents hlast.mem
    exact .dispatched (heq ▸ rfl) hlast
  · rcases hearlier.of_append with hlast | ⟨hcallbacks, hlast⟩
    · obtain ⟨member, -, hmember⟩ := List.mem_filterMap.mp hlast.mem
      exact .callback (source_of_callbackEvent? hmember) hlast hdispatched
    · exact .documented (source_of_mem_documentedEvents hlast.mem) hlast hcallbacks hdispatched

/-! ## One more documented event or callback -/

/-- One more entry of the documentation is one more event. -/
theorem documentedEvents_insert (s : Surface) (before : List FiredEvent) (fired : FiredEvent)
    (after : List FiredEvent) :
    ∃ earlier e later, e.name = fired.name ∧
      documentedEvents { s with docs := { s.docs with fires := before ++ fired :: after } } =
        earlier ++ e :: later ∧
      documentedEvents { s with docs := { s.docs with fires := before ++ after } } =
        earlier ++ later :=
  ⟨_, _, _, rfl, List.map_append, List.map_append⟩

/-- One more event before the dispatched ones, of a name that is dispatched, changes at most the
    place of this name. -/
theorem sameUpToPlace_of_sources {w : Workspace} {s t : Surface}
    (earlier later : List EventDescriptor)
    (hdispatched : dispatchedEvents w t = dispatchedEvents w s)
    (hwith : documentedEvents t ++ callbackEvents w t = earlier ++ e :: later)
    (hwithout : documentedEvents s ++ callbackEvents w s = earlier ++ later)
    (h : ∃ x ∈ dispatchedEvents w s, x.name = e.name) :
    SameUpToPlace e.name (t.events w) (s.events w) := by
  obtain ⟨x, hx, hname⟩ := h
  rw [events, events, hdispatched, hwith, hwithout, List.append_assoc, List.append_assoc]
  exact sameUpToPlace_insert ⟨x, List.mem_append_right later hx, hname⟩

/-- One more documented event for an event that is dispatched changes at most its place. -/
theorem sameUpToPlace_documented (w : Workspace) {s : Surface} {before after : List FiredEvent}
    {fired : FiredEvent} (hfires : s.docs.fires = before ++ after)
    (h : ∃ x ∈ dispatchedEvents w s, x.name = fired.name) :
    SameUpToPlace fired.name
      ({ s with docs := { s.docs with fires := before ++ fired :: after } }.events w)
      (s.events w) := by
  obtain ⟨earlier, e, later, hname, hwith, hwithout⟩ := documentedEvents_insert s before fired after
  have hdocs : { s with docs := { s.docs with fires := before ++ after } } = s := hfires ▸ rfl
  rw [hdocs] at hwithout
  rw [← hname] at h ⊢
  refine sameUpToPlace_of_sources earlier (later ++ callbackEvents w s) ?_ ?_ ?_ h
  · apply dispatchedEvents_congr <;> rfl
  · exact (congrArg (· ++ callbackEvents w s) hwith).trans (List.append_assoc _ _ _)
  · exact (congrArg (· ++ callbackEvents w s) hwithout).trans (List.append_assoc _ _ _)

/-- One more callback for an event that is dispatched changes at most the place of the event. -/
theorem sameUpToPlace_callback (w : Workspace) {s : Surface} {before after : List ShapeMember}
    {member : ShapeMember} (hshape : s.shape = before ++ after)
    (hmember : callbackEvent? w member = some e)
    (h : ∃ x ∈ dispatchedEvents w s, x.name = e.name) :
    SameUpToPlace e.name ({ s with shape := before ++ member :: after }.events w) (s.events w) := by
  have hwith : callbackEvents w { s with shape := before ++ member :: after } =
      before.filterMap (callbackEvent? w) ++ e :: after.filterMap (callbackEvent? w) := by
    rw [callbackEvents, List.filterMap_append, List.filterMap_cons_some hmember]
  have hwithout : callbackEvents w s =
      before.filterMap (callbackEvent? w) ++ after.filterMap (callbackEvent? w) := by
    rw [callbackEvents, hshape, List.filterMap_append]
  refine sameUpToPlace_of_sources (documentedEvents s ++ before.filterMap (callbackEvent? w))
    (after.filterMap (callbackEvent? w)) ?_ ?_ ?_ h
  · apply dispatchedEvents_congr <;> rfl
  · exact (congrArg (documentedEvents s ++ ·) hwith).trans (List.append_assoc _ _ _).symm
  · exact (congrArg (documentedEvents s ++ ·) hwithout).trans (List.append_assoc _ _ _).symm

/-- **Event precedence**: the names of a component's events are different, are those that its
    documentation, its callbacks and its dispatch calls name, and stand in the order in which they
    first occur there.  Every event is the last one of its name, as a whole: it has the last source
    that names it, and nothing of an earlier source is left in it.  So one more documented event or
    callback for an event that is dispatched changes at most the place of this event. -/
theorem events_by_precedence (w : Workspace) (s : Surface) :
    let sources := documentedEvents s ++ callbackEvents w s ++ dispatchedEvents w s
    ((s.events w).map (·.name)).Nodup ∧
    (∀ name, name ∈ (s.events w).map (·.name) ↔ name ∈ sources.map (·.name)) ∧
    (s.events w).map (·.name) = (sources.map (·.name)).eraseDups ∧
    (∀ e ∈ s.events w, IsLastOfName sources e ∧ FromLastSource w s e) ∧
    (∀ before fired after, s.docs.fires = before ++ after →
      (∃ x ∈ dispatchedEvents w s, x.name = fired.name) →
        SameUpToPlace fired.name
          ({ s with docs := { s.docs with fires := before ++ fired :: after } }.events w)
          (s.events w)) ∧
    (∀ before member after e, s.shape = before ++ after → callbackEvent? w member = some e →
      (∃ x ∈ dispatchedEvents w s, x.name = e.name) →
        SameUpToPlace e.name ({ s with shape := before ++ member :: after }.events w)
          (s.events w)) := by
  intro sources
  have hnames : (s.events w).map (·.name) = (sources.map (·.name)).eraseDups := map_name_events w s
  refine ⟨?_, ?_, hnames, ?_, ?_, ?_⟩
  · rw [hnames]
    exact nodup_eraseDups _
  · intro name
    rw [hnames, List.mem_eraseDups]
  · exact fun e he => ⟨isLastOfName_of_mem_events he, fromLastSource_of_mem_events he⟩
  · exact fun before fired after hfires h => sameUpToPlace_documented w hfires h
  · exact fun before member after e hshape hmember h => sameUpToPlace_callback w hshape hmember h

end Surface

end ElementCatalog
