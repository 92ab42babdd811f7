import ElementCatalog.Proofs.EventPrecedence
import ElementCatalog.Proofs.MergedSurfaces
import ElementCatalog.Proofs.WellFormedCatalogs

/-!
# Input members — which become properties and which become events

A member of the input shape may stand for an event or declare a property, and both are decided
apart. Toward: a function-like member with the name of a callback is an event and no property, every
other member with a declared type is a property unless its name is reserved, and the rest is
neither.  The route:

* the name of a callback is the callback mark with a capital letter behind it
  (`eventPart?_eq_some_iff`);
* properties of the shape are added after those of the fields, under new names alone
  (`firstByName_declaredProperties`);
* the static block of properties completes what is there and adds properties of its own source
  (`Completed`), so the properties of the shape stay and keep their order
  (`map_name_shape_properties`);
* a member gives an event exactly if it stands for one, and else a property if it declares one
  (`isSome_callbackEvent?_iff`, `isSome_shapeProperty?_iff`).
-/

namespace ElementCatalog

open Source (Property TypeExpr TypeMember)
open ElementCatalog.Types

/-! ## Names of callbacks -/

/-- What is left of a text behind its beginning. -/
theorem Text.stripStart?_eq_some_iff {head text rest : List Char} :
    stripStart? head text = some rest ↔ text = head ++ rest := by
  induction head generalizing text with
  | nil => rw [stripStart?, Option.some.injEq, List.nil_append]
  | cons h head ih =>
      cases text with
      | nil => simp [stripStart?]
      | cons c text =>
          rw [stripStart?, List.cons_append, List.cons.injEq]
          by_cases hc : h = c
          · rw [if_pos hc, ih]
            exact (and_iff_right hc.symm).symm
          · rw [if_neg hc]
            exact iff_of_false (fun heq => Option.some_ne_none rest heq.symm) fun heq =>
              hc heq.1.symm

/-- A name is that of a callback: the callback mark, and behind it a part that starts with a capital
    letter. -/
structure CallbackName (c : Conventions) (name part : String) : Prop where
  marked : name = c.eventCallbackPrefix ++ part
  capital : ∃ first rest, part.toList = first :: rest ∧ Text.isUppercase first = true

/-- The event part of a name is what stands behind the callback mark. -/
theorem eventPart?_eq_some_iff {c : Conventions} {name part : String} :
    c.eventPart? name = some part ↔ CallbackName c name part := by
  have hsplit : ∀ rest, Text.stripStart? c.eventCallbackPrefix.toList name.toList = some rest ↔
      name = c.eventCallbackPrefix ++ String.ofList rest := by
    intro rest
    rw [Text.stripStart?_eq_some_iff, ← String.toList_inj, String.toList_append,
      String.toList_ofList]
  rw [Conventions.eventPart?]
  constructor
  · intro h
    split at h
    · next first rest hstrip =>
        rw [Option.ite_none_right_eq_some] at h
        obtain ⟨hcapital, heq⟩ := h
        cases heq
        exact ⟨(hsplit _).mp hstrip, first, rest, String.toList_ofList, hcapital⟩
    · cases h
  · rintro ⟨hname, first, rest, hpart, hcapital⟩
    have heq : part = String.ofList (first :: rest) := by
      rw [← hpart, String.ofList_toList]
    rw [heq] at hname ⊢
    rw [(hsplit _).mpr hname]
    exact if_pos hcapital

namespace Dictionary

variable {α : Type} {entries : Dictionary α}

/-- What is written under new names alone, with different names, goes to the end. -/
theorem foldl_setNew (name : α → String) (added : List α) (h : (added.map name).Nodup)
    (entries : Dictionary α) :
    added.foldl (fun found a => setNew found (name a) a) entries =
      entries ++ (added.filter (name · ∉ names entries)).map fun a => (name a, a) := by
  induction added generalizing entries with
  | nil => exact (List.append_nil entries).symm
  | cons a rest ih =>
      obtain ⟨ha, hrest⟩ := List.nodup_cons.mp h
      rw [List.foldl_cons, List.filter_cons, ih hrest, setNew]
      by_cases hmem : name a ∈ names entries
      · rw [if_pos (isSome_find?_iff.mpr hmem), if_neg (by simpa using hmem)]
      · have hsome : ¬(find? entries (name a)).isSome := fun h => hmem (isSome_find?_iff.mp h)
        have hothers : rest.filter (name · ∉ names (entries ++ [(name a, a)])) =
            rest.filter (name · ∉ names entries) := by
          refine List.filter_congr fun b hb => ?_
          have hne : name b ≠ name a := fun heq => ha (heq ▸ List.mem_map_of_mem hb)
          have hnames : names (entries ++ [(name a, a)]) = names entries ++ [name a] :=
            List.map_append
          simp only [hnames, List.mem_append, List.mem_singleton, hne, or_false]
        rw [if_neg hsome, if_pos (decide_eq_true hmem), set_of_notMem hmem, hothers,
          List.append_assoc]
        rfl

/-- What is written under new names alone stands under its own name. -/
theorem keyed_foldl_setNew (name : α → String) (added : List α) :
    Keyed name (· ∈ added) (added.foldl (fun found a => setNew found (name a) a) []) :=
  List.foldlRecOn (motive := Keyed name (· ∈ added)) added _ .nil fun _ hfound _ ha =>
    hfound.setNew rfl ha

/-- Every name that is written is there. -/
theorem mem_names_foldl_setNew {name : α → String} {added : List α} {n : String} :
    n ∈ names (added.foldl (fun found a => setNew found (name a) a) []) ↔ n ∈ added.map name := by
  induction added using List.reverseRecOn with
  | nil => rfl
  | append_singleton added a ih =>
      rw [List.foldl_append, List.map_append, List.mem_append, List.map_singleton,
        List.mem_singleton, ← ih]
      generalize added.foldl (fun found a => setNew found (name a) a) [] = found
      show n ∈ names (setNew found (name a) a) ↔ _
      rw [setNew]
      split
      · next hsome =>
          refine ⟨Or.inl, ?_⟩
          rintro (h | rfl)
          · exact h
          · exact isSome_find?_iff.mp hsome
      · rw [mem_names_set]
        exact or_comm

end Dictionary

namespace Surface

/-! ## The static block -/

/-- A property is another one in which a missing description and a missing default are filled in. -/
def Completes (p q : PropertyDescriptor) : Prop :=
  ∃ description value, q =
    { p with
      description := p.description.or description
      defaultValue := p.defaultValue.or value }

/-- What a static block makes of properties: those that are there are completed in place, and others
    with a source of their own follow. -/
def Completed (declared all : Dictionary PropertyDescriptor) : Prop :=
  ∃ kept added, all = kept ++ added ∧
    List.Forall₂ (fun a b => a.1 = b.1 ∧ Completes a.2 b.2) declared kept ∧
    ∀ p ∈ added, p.2.source = .legacy

variable {w : Workspace} {s : Surface} {declared all : Dictionary PropertyDescriptor}
  {p q r : PropertyDescriptor}

/-- Nothing needs to be filled in. -/
theorem Completes.refl (p : PropertyDescriptor) : Completes p p :=
  ⟨none, none, by rw [Option.or_none, Option.or_none]⟩

/-- What is filled in twice was missing before. -/
theorem Completes.trans (hpq : Completes p q) (hqr : Completes q r) : Completes p r := by
  obtain ⟨description, value, rfl⟩ := hpq
  obtain ⟨description', value', rfl⟩ := hqr
  exact ⟨description.or description', value.or value', by rw [Option.or_assoc, Option.or_assoc]⟩

/-- A completed property keeps its name. -/
theorem Completes.name_eq (h : Completes p q) : q.name = p.name := by
  obtain ⟨description, value, rfl⟩ := h
  rfl

/-- A completed property keeps its source. -/
theorem Completes.source_eq (h : Completes p q) : q.source = p.source := by
  obtain ⟨description, value, rfl⟩ := h
  rfl

/-- Before the static block nothing is completed. -/
theorem Completed.refl (declared : Dictionary PropertyDescriptor) :
    Completed declared declared := by
  refine ⟨declared, [], (List.append_nil declared).symm, ?_, fun p hp => absurd hp List.not_mem_nil⟩
  exact List.forall₂_same.mpr fun p _ => ⟨rfl, .refl p.2⟩

/-- An entry is completed where it stands. -/
theorem forall₂_set {kept : Dictionary PropertyDescriptor}
    (h : List.Forall₂ (fun a b => a.1 = b.1 ∧ Completes a.2 b.2) declared kept) {name : String}
    (hfound : Dictionary.find? kept name = some q) (hcompletes : Completes q r) :
    List.Forall₂ (fun a b => a.1 = b.1 ∧ Completes a.2 b.2) declared
      (Dictionary.set kept name r) := by
  induction h with
  | nil => cases hfound
  | @cons a b declared kept hab hrest ih =>
      obtain ⟨n, v⟩ := b
      rw [Dictionary.find?] at hfound
      rw [Dictionary.set]
      by_cases hn : n = name
      · rw [if_pos hn] at hfound ⊢
        cases hfound
        exact .cons ⟨hab.1, hab.2.trans hcompletes⟩ hrest
      · rw [if_neg hn] at hfound ⊢
        exact .cons hab (ih hfound)

/-- An entry of the static block completes a property or adds one of its own. -/
theorem Completed.addLegacy (h : Completed declared all) (entry : Property) :
    Completed declared (addLegacy s all entry) := by
  obtain ⟨kept, added, rfl, hkept, hadded⟩ := h
  cases entry with
  | keyValue key value =>
      rw [Surface.addLegacy]
      cases key.name? with
      | none => exact ⟨kept, added, rfl, hkept, hadded⟩
      | some name =>
          dsimp only
          split
          · next found hfound =>
              rw [Dictionary.find?_append, Option.or_eq_some_iff] at hfound
              rw [Dictionary.set_append]
              rcases hfound with hfound | ⟨hnone, hfound⟩
              · have hmem := Dictionary.isSome_find?_iff.mp (Option.isSome_of_eq_some hfound)
                rw [if_pos hmem]
                exact ⟨_, added, rfl, forall₂_set hkept hfound ⟨_, _, rfl⟩, hadded⟩
              · have hsource : found.source = .legacy := hadded _ (Dictionary.mem_of_find? hfound)
                rw [if_neg (Dictionary.find?_eq_none_iff.mp hnone)]
                refine ⟨kept, _, rfl, hkept, fun p hp => ?_⟩
                rcases Dictionary.mem_of_mem_set hp with rfl | hp
                · exact hsource
                · exact hadded p hp
          · next hnone =>
              rw [Dictionary.set_of_notMem (Dictionary.find?_eq_none_iff.mp hnone),
                List.append_assoc]
              refine ⟨kept, _, rfl, hkept, fun p hp => ?_⟩
              rcases List.mem_append.mp hp with hp | hp
              · exact hadded p hp
              · rw [List.mem_singleton.mp hp]
  | _ => exact ⟨kept, added, rfl, hkept, hadded⟩

/-- The static block completes the declared properties. -/
theorem exists_completed_properties (w : Workspace) (s : Surface) :
    ∃ all, Completed (firstByName (declaredProperties w s)) all ∧
      s.properties w = Dictionary.values all := by
  rw [properties]
  split
  · next entries _ =>
      refine ⟨_, ?_, rfl⟩
      exact List.foldlRecOn (motive := Completed (firstByName (declaredProperties w s))) entries
        (Surface.addLegacy s) (.refl _) fun _ h entry _ => h.addLegacy entry
  · exact ⟨_, .refl _, rfl⟩

/-- Every declared property is completed to one of its name and source. -/
theorem Completed.exists_of_mem (h : Completed declared all) {n : String} (hp : (n, p) ∈ declared) :
    ∃ q ∈ Dictionary.values all, Completes p q := by
  obtain ⟨kept, added, rfl, hkept, -⟩ := h
  obtain ⟨b, hb, -, hcompletes⟩ := exists_of_forall₂_mem hkept hp
  exact ⟨b.2, List.mem_map_of_mem (List.mem_append_left added hb), hcompletes⟩

/-- The properties of a source other than the static block keep their names and their order. -/
theorem Completed.map_name_filter (h : Completed declared all) {source : PropertySource}
    (hsource : source ≠ .legacy) :
    ((Dictionary.values all).filter (·.source = source)).map (·.name) =
      ((Dictionary.values declared).filter (·.source = source)).map (·.name) := by
  obtain ⟨kept, added, rfl, hkept, hadded⟩ := h
  have hnone : (Dictionary.values added).filter (·.source = source) = [] := by
    refine List.filter_eq_nil_iff.mpr fun q hq => ?_
    obtain ⟨b, hb, rfl⟩ := List.mem_map.mp hq
    rw [hadded b hb]
    exact fun heq => hsource (of_decide_eq_true heq).symm
  have hvalues : Dictionary.values (kept ++ added) =
      Dictionary.values kept ++ Dictionary.values added := List.map_append
  rw [hvalues, List.filter_append, hnone, List.append_nil]
  clear hvalues
  induction hkept with
  | nil => rfl
  | @cons a b declared kept hab _ ih =>
      have ha : Dictionary.values (a :: declared) = a.2 :: Dictionary.values declared := rfl
      have hb : Dictionary.values (b :: kept) = b.2 :: Dictionary.values kept := rfl
      rw [ha, hb, List.filter_cons, List.filter_cons, hab.2.source_eq]
      split
      · rw [List.map_cons, List.map_cons, ih, hab.2.name_eq]
      · exact ih

/-! ## Properties of fields and of the shape -/

/-- The properties that decorated fields and fields made by a factory declare. -/
def fieldProperties (w : Workspace) (s : Surface) : List PropertyDescriptor :=
  match s.implementedBy with
  | some value => (FieldCandidate.ofClass w.conventions value).filterMap fun field =>
    (decoratedProperty? w s field).or (factoryProperty? w s field)
  | none => []

/-- The names that such fields declare. -/
def fieldNames (w : Workspace) (s : Surface) : List String :=
  (fieldProperties w s).map (·.name)

/-- Declared properties come from fields, and then from the shape. -/
theorem declaredProperties_eq (w : Workspace) (s : Surface) :
    declaredProperties w s = fieldProperties w s ++ s.shape.filterMap (shapeProperty? w s) := by
  rw [declaredProperties, fieldProperties]
  cases s.implementedBy <;> rfl

/-- What fields declare has the source of a field. -/
theorem source_of_mem_fieldProperties (hp : p ∈ fieldProperties w s) :
    p.source = .decorator ∨ p.source = .factory := by
  rw [fieldProperties] at hp
  cases hclass : s.implementedBy with
  | none =>
      rw [hclass] at hp
      cases hp
  | some value =>
      rw [hclass] at hp
      obtain ⟨field, -, hfield⟩ := List.mem_filterMap.mp hp
      rcases Option.or_eq_some_iff.mp hfield with hdecorated | ⟨-, hmade⟩
      · obtain ⟨d, -, rfl⟩ := Option.map_eq_some_iff.mp hdecorated
        exact Or.inl rfl
      · rw [factoryProperty?] at hmade
        split at hmade
        · obtain ⟨required, -, rfl⟩ := Option.map_eq_some_iff.mp hmade
          exact Or.inr rfl
        · cases hmade

/-- What a member of the shape declares has its name and the source of the shape. -/
theorem shapeProperty?_fields {m : ShapeMember} (h : shapeProperty? w s m = some p) :
    p.name = m.name ∧ p.source = .shape := by
  rw [shapeProperty?] at h
  split at h
  · cases h
  · obtain ⟨type, -, rfl⟩ := Option.map_eq_some_iff.mp h
    exact ⟨rfl, rfl⟩

/-- The names of what the members of a shape declare are names of members, in order. -/
theorem map_name_filterMap_shapeProperty? (w : Workspace) (s : Surface) (shape : List ShapeMember) :
    (shape.filterMap (shapeProperty? w s)).map (·.name) =
      (shape.filter fun m => (shapeProperty? w s m).isSome).map (·.name) := by
  induction shape with
  | nil => rfl
  | cons m rest ih =>
      cases h : shapeProperty? w s m with
      | none =>
          rw [List.filterMap_cons_none h, List.filter_cons, h, ih]
          rfl
      | some p =>
          rw [List.filterMap_cons_some h, List.filter_cons, h, List.map_cons, ih,
            (shapeProperty?_fields h).1]
          rfl

/-- The declared properties under their names: those of the fields, and after them those that
    members of the shape declare under new names. -/
theorem firstByName_declaredProperties (h : (s.shape.map (·.name)).Nodup) :
    firstByName (declaredProperties w s) = firstByName (fieldProperties w s) ++
      ((s.shape.filterMap (shapeProperty? w s)).filter (·.name ∉ fieldNames w s)).map
        fun p => (p.name, p) := by
  have hnodup : ((s.shape.filterMap (shapeProperty? w s)).map (·.name)).Nodup := by
    rw [map_name_filterMap_shapeProperty?]
    exact h.sublist (List.filter_sublist.map _)
  rw [declaredProperties_eq, firstByName, List.foldl_append, Dictionary.foldl_setNew _ _ hnodup]
  congr 2
  refine List.filter_congr fun p _ => ?_
  exact decide_eq_decide.mpr (not_congr Dictionary.mem_names_foldl_setNew)

/-- The properties of the shape are those that its members declare and no field, in the order of the
    members. -/
theorem map_name_shape_properties (h : (s.shape.map (·.name)).Nodup) :
    ((s.properties w).filter (·.source = .shape)).map (·.name) =
      ((s.shape.filter fun m => (shapeProperty? w s m).isSome).map (·.name)).filter
        (· ∉ fieldNames w s) := by
  obtain ⟨all, hall, hproperties⟩ := exists_completed_properties w s
  have hfields : (Dictionary.values (firstByName (fieldProperties w s))).filter
      (·.source = .shape) = [] := by
    refine List.filter_eq_nil_iff.mpr fun p hp => ?_
    obtain ⟨entry, hentry, rfl⟩ := List.mem_map.mp hp
    have hkeyed := Dictionary.keyed_foldl_setNew (·.name) (fieldProperties w s)
    have hsource := source_of_mem_fieldProperties (hkeyed.holds entry hentry)
    rcases hsource with heq | heq
    · rw [heq]
      decide
    · rw [heq]
      decide
  have hshape : (s.shape.filterMap (shapeProperty? w s)).filter
      (fun p => decide (p.source = .shape) && decide (p.name ∉ fieldNames w s)) =
      (s.shape.filterMap (shapeProperty? w s)).filter (·.name ∉ fieldNames w s) := by
    refine List.filter_congr fun p hp => ?_
    obtain ⟨m, -, hm⟩ := List.mem_filterMap.mp hp
    rw [(shapeProperty?_fields hm).2]
    rfl
  have hvalues : Dictionary.values (firstByName (declaredProperties w s)) =
      Dictionary.values (firstByName (fieldProperties w s)) ++
        (s.shape.filterMap (shapeProperty? w s)).filter (·.name ∉ fieldNames w s) := by
    rw [firstByName_declaredProperties h, Dictionary.values, List.map_append, List.map_map]
    exact congrArg _ (List.map_id _)
  rw [hproperties, hall.map_name_filter (by decide), hvalues, List.filter_append, hfields,
    List.nil_append, List.filter_filter, hshape, ← map_name_filterMap_shapeProperty?,
    List.filter_map]
  rfl

/-! ## What becomes of a member -/

/-- A member stands for an event: it is like a function, and its name is that of a callback. -/
def StandsForEvent (w : Workspace) (m : ShapeMember) : Prop :=
  m.callback.isSome ∧ ∃ part, CallbackName w.conventions m.name part

/-- A member declares a property: it stands for no event, its name is not reserved, and its type is
    declared. -/
structure DeclaresProperty (w : Workspace) (m : ShapeMember) : Prop where
  noEvent : ¬StandsForEvent w m
  free : m.name ∉ w.conventions.reservedShapeMembers
  typed : m.type.isSome

/-- A member is passed over: it stands for no event, and its name is reserved or its type is not
    declared, as that of a method. -/
def PassedOver (w : Workspace) (m : ShapeMember) : Prop :=
  ¬StandsForEvent w m ∧ (m.name ∈ w.conventions.reservedShapeMembers ∨ m.type = none)

/-- The name of the event that a member stands for, with the rest of its name behind the mark: the
    documented name, or else that rest with a small letter. -/
def eventName (m : ShapeMember) (part : String) : String :=
  (m.scope.file.docsAt [m.anchor]).eventName.getD (Text.lowerFirst part)

variable {m : ShapeMember}

/-- The members that are kept from the properties are those that stand for events. -/
theorem isEventMember_iff : isEventMember w.conventions m ↔ StandsForEvent w m := by
  rw [isEventMember, Bool.and_eq_true,
    Option.isSome_iff_exists (x := w.conventions.eventPart? m.name)]
  exact and_congr_right fun _ => exists_congr fun _ => eventPart?_eq_some_iff

/-- A member gives an event if it stands for one. -/
theorem isSome_callbackEvent?_iff : (callbackEvent? w m).isSome ↔ StandsForEvent w m := by
  rw [← isEventMember_iff, isEventMember, callbackEvent?]
  cases w.conventions.eventPart? m.name <;> cases m.callback <;> simp

/-- The event of a member has its event name. -/
theorem name_of_callbackEvent? {e : EventDescriptor} (h : callbackEvent? w m = some e) :
    ∃ part, CallbackName w.conventions m.name part ∧ e.name = eventName m part := by
  rw [callbackEvent?] at h
  split at h
  · next part callback hpart hcallback =>
      cases h
      exact ⟨part, eventPart?_eq_some_iff.mp hpart, rfl⟩
  · cases h

/-- A member gives a property if it declares one. -/
theorem isSome_shapeProperty?_iff (s : Surface) :
    (shapeProperty? w s m).isSome ↔ DeclaresProperty w m := by
  have hkept : (w.conventions.isReservedMember m.name || isEventMember w.conventions m) = true ↔
      m.name ∈ w.conventions.reservedShapeMembers ∨ StandsForEvent w m := by
    rw [Bool.or_eq_true, isEventMember_iff, Conventions.isReservedMember, List.contains_iff_mem]
  rw [shapeProperty?]
  split
  · next h =>
      refine ⟨fun hsome => ?_, fun hdeclares => ?_⟩
      · cases hsome
      · rcases hkept.mp h with hreserved | hevent
        · exact absurd hreserved hdeclares.free
        · exact absurd hevent hdeclares.noEvent
  · next h =>
      have hnone := not_or.mp (mt hkept.mpr h)
      rw [Option.isSome_map]
      exact ⟨fun htyped => ⟨hnone.2, hnone.1, htyped⟩, (·.typed)⟩

/-- A member gives neither an event nor a property if it is passed over. -/
theorem gives_nothing_iff (s : Surface) :
    callbackEvent? w m = none ∧ shapeProperty? w s m = none ↔ PassedOver w m := by
  have hevent : callbackEvent? w m = none ↔ ¬StandsForEvent w m := by
    rw [← isSome_callbackEvent?_iff, Option.not_isSome_iff_eq_none]
  rw [PassedOver, hevent, ← Option.not_isSome_iff_eq_none, isSome_shapeProperty?_iff]
  refine and_congr_right fun hnone => ⟨fun h => ?_, ?_⟩
  · by_cases hreserved : m.name ∈ w.conventions.reservedShapeMembers
    · exact Or.inl hreserved
    · refine Or.inr (Option.not_isSome_iff_eq_none.mp fun htyped => ?_)
      exact h ⟨hnone, hreserved, htyped⟩
  · rintro (hreserved | htype) hdeclares
    · exact hdeclares.free hreserved
    · have htyped := hdeclares.typed
      rw [htype] at htyped
      cases htyped

/-- What becomes of a member of the input shape: an event, a property, or nothing. -/
structure Partitioned (w : Workspace) (s : Surface) (m : ShapeMember) : Prop where
  event_iff : (callbackEvent? w m).isSome ↔ StandsForEvent w m
  property_iff : (shapeProperty? w s m).isSome ↔ DeclaresProperty w m
  nothing_iff : callbackEvent? w m = none ∧ shapeProperty? w s m = none ↔ PassedOver w m
  /-- No member gives both. -/
  notBoth : callbackEvent? w m = none ∨ shapeProperty? w s m = none
  /-- The event of a member is among the events of the component, under its event name. -/
  foundEvent : m.callback.isSome → ∀ part, CallbackName w.conventions m.name part →
    ∃ e ∈ s.events w, e.name = eventName m part
  /-- The property of a member is among the properties of the component, unless a field declares
      this name. -/
  foundProperty : (∃ q ∈ s.properties w, q.source = .shape ∧ q.name = m.name) ↔
    DeclaresProperty w m ∧ m.name ∉ fieldNames w s
  /-- What a member declares is only completed. -/
  completed : ∀ p, shapeProperty? w s m = some p → m.name ∉ fieldNames w s →
    ∃ q ∈ s.properties w, Completes p q
  /-- A field that declares the name of a member has the property of this name. -/
  foundField : m.name ∈ fieldNames w s → ∃ q ∈ s.properties w, q.name = m.name ∧
    (q.source = .decorator ∨ q.source = .factory)
  /-- Without a member that gives no event, the events are the same. -/
  sameEvents : callbackEvent? w m = none → ∀ before after, s.shape = before ++ m :: after →
    { s with shape := before ++ after }.events w = s.events w
  /-- Without a member that gives no property, the properties are the same. -/
  sameProperties : shapeProperty? w s m = none → ∀ before after, s.shape = before ++ m :: after →
    { s with shape := before ++ after }.properties w = s.properties w

/-- What is declared first under its name is among the properties, completed. -/
theorem exists_completes_of_mem (h : (p.name, p) ∈ firstByName (declaredProperties w s)) :
    ∃ q ∈ s.properties w, Completes p q := by
  obtain ⟨all, hall, hproperties⟩ := exists_completed_properties w s
  rw [hproperties]
  exact hall.exists_of_mem h

/-- A name that a field declares has a property of a field. -/
theorem exists_field_property (hnodup : (s.shape.map (·.name)).Nodup) {name : String}
    (h : name ∈ fieldNames w s) : ∃ q ∈ s.properties w, q.name = name ∧
      (q.source = .decorator ∨ q.source = .factory) := by
  obtain ⟨entry, hentry, hname⟩ := List.mem_map.mp (Dictionary.mem_names_foldl_setNew.mpr h)
  have hkeyed := Dictionary.keyed_foldl_setNew (·.name) (fieldProperties w s)
  have hfield := hkeyed.holds entry hentry
  have heq : entry.2.name = entry.1 := hkeyed.own entry hentry
  have hfirst : (entry.2.name, entry.2) ∈ firstByName (declaredProperties w s) := by
    rw [firstByName_declaredProperties hnodup, heq]
    exact List.mem_append_left _ hentry
  obtain ⟨q, hq, hcompletes⟩ := exists_completes_of_mem hfirst
  refine ⟨q, hq, ?_, ?_⟩
  · rw [hcompletes.name_eq, heq, hname]
  · rw [hcompletes.source_eq]
    exact source_of_mem_fieldProperties hfield

/-- What a member declares is among the properties, unless a field declares its name. -/
theorem exists_completed_shapeProperty (hnodup : (s.shape.map (·.name)).Nodup) (hm : m ∈ s.shape)
    (hp : shapeProperty? w s m = some p) (hfield : m.name ∉ fieldNames w s) :
    ∃ q ∈ s.properties w, Completes p q := by
  refine exists_completes_of_mem ?_
  rw [← (shapeProperty?_fields hp).1] at hfield
  rw [firstByName_declaredProperties hnodup]
  refine List.mem_append_right _ (List.mem_map_of_mem (List.mem_filter.mpr ⟨?_, ?_⟩))
  · exact List.mem_filterMap.mpr ⟨m, hm, hp⟩
  · exact decide_eq_true hfield

/-- There is a property of the shape under the name of a member exactly if the member declares it
    and no field does. -/
theorem exists_shape_property_iff (hnodup : (s.shape.map (·.name)).Nodup) (hm : m ∈ s.shape) :
    (∃ q ∈ s.properties w, q.source = .shape ∧ q.name = m.name) ↔
      DeclaresProperty w m ∧ m.name ∉ fieldNames w s := by
  have hmem : (∃ q ∈ s.properties w, q.source = .shape ∧ q.name = m.name) ↔
      m.name ∈ ((s.properties w).filter (·.source = .shape)).map (·.name) := by
    simp only [List.mem_map, List.mem_filter, decide_eq_true_eq, and_assoc]
  rw [hmem, map_name_shape_properties hnodup, List.mem_filter, decide_eq_true_eq,
    ← isSome_shapeProperty?_iff s]
  refine and_congr_left fun _ => ⟨fun h => ?_, fun h => ?_⟩
  · obtain ⟨other, hother, hname⟩ := List.mem_map.mp h
    obtain ⟨hshape, hsome⟩ := List.mem_filter.mp hother
    rw [← List.inj_on_of_nodup_map hnodup hshape hm hname]
    exact hsome
  · exact List.mem_map_of_mem (List.mem_filter.mpr ⟨hm, h⟩)

/-- Every member of a shape with different names becomes one of the three. -/
theorem partitioned (hnodup : (s.shape.map (·.name)).Nodup) (hm : m ∈ s.shape) :
    Partitioned w s m where
  event_iff := isSome_callbackEvent?_iff
  property_iff := isSome_shapeProperty?_iff s
  nothing_iff := gives_nothing_iff s
  notBoth := by
    rw [← Option.not_isSome_iff_eq_none, ← Option.not_isSome_iff_eq_none,
      isSome_callbackEvent?_iff, isSome_shapeProperty?_iff, ← not_and_or]
    exact fun h => h.2.noEvent h.1
  foundEvent hcallback part hpart := by
    obtain ⟨e, he⟩ := Option.isSome_iff_exists.mp
      (isSome_callbackEvent?_iff.mpr ⟨hcallback, part, hpart⟩)
    obtain ⟨other, hother, hname⟩ := name_of_callbackEvent? he
    have heq : other = part :=
      Option.some.inj ((eventPart?_eq_some_iff.mpr hother).symm.trans
        (eventPart?_eq_some_iff.mpr hpart))
    rw [← heq, ← hname]
    refine exists_mem_events ?_
    exact List.mem_append_left _ (List.mem_append_right _ (List.mem_filterMap.mpr ⟨m, hm, he⟩))
  foundProperty := exists_shape_property_iff hnodup hm
  completed p hp hfield := exists_completed_shapeProperty hnodup hm hp hfield
  foundField h := exists_field_property hnodup h
  sameEvents hnone before after hshape := by
    have hcallbacks : callbackEvents w { s with shape := before ++ after } =
        callbackEvents w s := by
      rw [callbackEvents, callbackEvents, hshape, List.filterMap_append, List.filterMap_append,
        List.filterMap_cons_none hnone]
    have hdispatched : dispatchedEvents w { s with shape := before ++ after } =
        dispatchedEvents w s := by
      apply dispatchedEvents_congr <;> rfl
    rw [events, events, hcallbacks, hdispatched]
    rfl
  sameProperties hnone before after hshape := by
    have hdeclared : declaredProperties w { s with shape := before ++ after } =
        declaredProperties w s := by
      rw [declaredProperties_eq, declaredProperties_eq, hshape, List.filterMap_append,
        List.filterMap_append, List.filterMap_cons_none hnone]
      rfl
    rw [properties, properties, hdeclared]
    rfl

/-- **Input members**: the members of the input shape of an implementation have different names, and
    each becomes an event, a property or nothing, by its name, its type and whether it is like a
    function.  The properties of the shape are in the order of the members. -/
theorem shape_members_partitioned (h : IsRead w s) :
    (s.shape.map (·.name)).Nodup ∧ (∀ m ∈ s.shape, Partitioned w s m) ∧
      ((s.properties w).filter (·.source = .shape)).map (·.name) =
        ((s.shape.filter fun m => (shapeProperty? w s m).isSome).map (·.name)).filter
          (· ∉ fieldNames w s) := by
  have hnodup := h.merged.nodup_names
  exact ⟨hnodup, fun m hm => partitioned hnodup hm, map_name_shape_properties hnodup⟩

/-! ## A button with a callback, a label and a method -/

/-- The type `{ onSave: (title: string) => void; label: string; reset(): void }`. -/
def saveInput : TypeExpr :=
  .object
    [.property ⟨35, 1⟩ (.ident "onSave" false) false (some (.function (some (.keyword .string)))),
     .property ⟨66, 1⟩ (.ident "label" false) false (some (.keyword .string)),
     .method ⟨81, 1⟩ (.ident "reset" false) false none]

/-- A function with inputs of that type. -/
def saveButton : Source.Function :=
  { start := ⟨7, 1⟩
    params := [.ident "props" (some ⟨saveInput, []⟩)]
    decorators := []
    body := some []
    typeParams := []
    returnType := none }

/-- A module that exports this function. -/
def saveModule : ParsedFile :=
  { path := ⟨[.root, .name "save.ts"]⟩
    module := ⟨[.exported ⟨0, 1⟩ (.functionDecl "SaveButton" saveButton)], []⟩
    discoverable := true }

/-- The file of that module. -/
def saveFile : SourceFile :=
  Program.placed ⟨[.root]⟩ saveModule 0

/-- The workspace of that file alone. -/
def saveWorkspace : Workspace :=
  .ofProgram (.ofParsed ⟨[.root]⟩ [saveModule]) {}

/-- The declaration of the function. -/
def saveDeclaration : Declaration :=
  ⟨"SaveButton", saveFile, .functionNode saveButton, [⟨0, 1⟩, ⟨7, 1⟩], ⟨7, 1⟩⟩

/-- What the function shows of a component. -/
def saveSurface : Surface :=
  (bare "SaveButton" saveFile (saveFile.docsAt saveDeclaration.anchors)).readDeclared saveWorkspace
    saveButton

/-- The callback of the button is an event, its label a property, and its method nothing. -/
theorem save_button_members :
    IsRead saveWorkspace saveSurface ∧
      saveSurface.shape.map (·.name) = ["onSave", "label", "reset"] ∧
      (∃ e ∈ saveSurface.events saveWorkspace, e.name = "save") ∧
      ((saveSurface.properties saveWorkspace).filter (·.source = .shape)).map (·.name) =
        ["label"] := by
  have hread : IsRead saveWorkspace saveSurface := .declared (d := saveDeclaration) rfl
  have hfirst : saveSurface.shape ≠ [] := List.cons_ne_nil _ _
  obtain ⟨-, hmembers, horder⟩ := shape_members_partitioned hread
  refine ⟨hread, rfl, ?_, ?_⟩
  · have hpart : saveWorkspace.conventions.eventPart? "onSave" = some "Save" := by decide +kernel
    have hname : CallbackName saveWorkspace.conventions (saveSurface.shape.head hfirst).name
        "Save" := eventPart?_eq_some_iff.mp hpart
    obtain ⟨e, he, heq⟩ := (hmembers _ (List.head_mem hfirst)).foundEvent rfl "Save" hname
    exact ⟨e, he, heq.trans rfl⟩
  · rw [horder]
    decide +kernel

end Surface

end ElementCatalog
