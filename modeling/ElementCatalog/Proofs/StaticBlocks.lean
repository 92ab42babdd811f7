import ElementCatalog.Proofs.InputMembers

/-!
# Static blocks — what a static block of properties may change

A class may list properties in a static block, beside those that its fields and its input shape
declare.  Toward: the block leaves every declared property where it is, fills in a description and a
default only where there is none, and adds properties of its own behind the others, one for each
new name.  The route:

* an entry of the block either completes the property of its name or adds its own (`addLegacy_eq`);
* so the block as a whole completes the first properties of all names, those of its own entries
  among them (`foldl_backfill`, by induction from the last entry);
* what is first of its name comes from the declared properties, and then from the entries with new
  names (`foldl_setNew_eq_append`).
-/

namespace ElementCatalog

open Source (Property ClassDef ClassMember)
open ElementCatalog.Types

namespace Dictionary

variable {α β : Type}

/-- A dictionary with its values changed has the changed value under each name. -/
theorem find?_map_values (entries : Dictionary α) (f : α → β) (name : String) :
    find? (entries.map fun entry => (entry.1, f entry.2)) name = (find? entries name).map f := by
  induction entries with
  | nil => rfl
  | cons entry rest ih =>
      obtain ⟨n, v⟩ := entry
      rw [List.map_cons, find?, find?, ih]
      split <;> rfl

/-- The names of a dictionary with its values changed. -/
theorem names_map_values (entries : Dictionary α) (f : α → β) :
    names (entries.map fun entry => (entry.1, f entry.2)) = names entries := by
  rw [names, names, List.map_map]
  rfl

/-- Where two changes differ in the value of one name alone, the second is the first with this value
    written over it. -/
theorem set_map_values {entries : Dictionary α} (h : (names entries).Nodup) {name : String} {v : α}
    (hfound : find? entries name = some v) {f g : α → β}
    (hothers : ∀ entry ∈ entries, entry.1 ≠ name → f entry.2 = g entry.2) :
    set (entries.map fun entry => (entry.1, f entry.2)) name (g v) =
      entries.map fun entry => (entry.1, g entry.2) := by
  induction entries with
  | nil => cases hfound
  | cons entry rest ih =>
      obtain ⟨n, value⟩ := entry
      obtain ⟨hnew, hrest⟩ := List.nodup_cons.mp h
      rw [find?] at hfound
      rw [List.map_cons, List.map_cons, set]
      by_cases hn : n = name
      · rw [if_pos hn] at hfound ⊢
        cases hfound
        have hsame : ∀ entry ∈ rest, (entry.1, f entry.2) = (entry.1, g entry.2) := by
          intro entry hentry
          have hne : entry.1 ≠ name := fun heq =>
            hnew (List.mem_map.mpr ⟨entry, hentry, heq.trans hn.symm⟩)
          rw [hothers entry (List.mem_cons_of_mem _ hentry) hne]
        rw [List.map_congr_left hsame]
      · rw [if_neg hn] at hfound ⊢
        rw [hothers _ List.mem_cons_self hn,
          ih hrest hfound fun entry hentry => hothers entry (List.mem_cons_of_mem _ hentry)]

/-- What is written under new names alone goes to the end, the first value of each name. -/
theorem foldl_setNew_eq_append (name : α → String) (added : List α) (entries : Dictionary α) :
    added.foldl (fun found a => setNew found (name a) a) entries =
      entries ++ (added.filter (name · ∉ names entries)).foldl
        (fun found a => setNew found (name a) a) [] := by
  induction added using List.reverseRecOn with
  | nil => exact (List.append_nil entries).symm
  | append_singleton added a ih =>
      rw [List.foldl_append, ih, List.filter_append, List.foldl_append, List.filter_singleton]
      generalize (added.filter (name · ∉ names entries)).foldl
        (fun found a => setNew found (name a) a) [] = new
      show setNew (entries ++ new) (name a) a = _
      by_cases hmem : name a ∈ names entries
      · have hsome : (find? (entries ++ new) (name a)).isSome := by
          rw [find?_append, Option.isSome_or, isSome_find?_iff.mpr hmem]
          rfl
        rw [setNew, if_pos hsome, decide_eq_false (not_not_intro hmem)]
        rfl
      · have hnone : find? entries (name a) = none := find?_eq_none_iff.mpr hmem
        rw [setNew, find?_append, hnone, Option.none_or, set_append, if_neg hmem,
          decide_eq_true hmem]
        show _ = entries ++ setNew new (name a) a
        rw [setNew]
        split <;> rfl

end Dictionary

namespace Surface

variable {w : Workspace} {s : Surface}

/-! ## The first property of a name -/

/-- The first property of a name. -/
def firstOf? (properties : List PropertyDescriptor) (name : String) : Option PropertyDescriptor :=
  properties.find? (·.name == name)

/-- One property more counts if its name is new. -/
theorem firstByName_concat (properties : List PropertyDescriptor) (p : PropertyDescriptor) :
    firstByName (properties ++ [p]) = Dictionary.setNew (firstByName properties) p.name p := by
  rw [firstByName, List.foldl_append]
  rfl

/-- Properties stand under their own names, each name once. -/
theorem keyed_firstByName (properties : List PropertyDescriptor) :
    Dictionary.Keyed (·.name) (· ∈ properties) (firstByName properties) :=
  Dictionary.keyed_foldl_setNew (·.name) properties

/-- Under a name stands the first property of this name. -/
theorem find?_firstByName (properties : List PropertyDescriptor) (name : String) :
    Dictionary.find? (firstByName properties) name = firstOf? properties name := by
  induction properties using List.reverseRecOn with
  | nil => rfl
  | append_singleton properties p ih =>
      rw [firstByName_concat, firstOf?, List.find?_append, Dictionary.setNew]
      split
      · next hsome =>
          obtain ⟨q, hq⟩ := Option.isSome_iff_exists.mp hsome
          by_cases hname : name = p.name
          · rw [hname, hq, ← firstOf?, ← hname, ← ih, hname, hq, Option.some_or]
          · rw [ih, firstOf?, List.find?_singleton,
              if_neg fun heq => hname (beq_iff_eq.mp heq).symm, Option.or_none]
      · next hnone =>
          rw [Dictionary.find?_set, List.find?_singleton, ← firstOf?, ← ih]
          by_cases hname : name = p.name
          · rw [if_pos hname, if_pos (beq_iff_eq.mpr hname.symm), hname,
              Option.not_isSome_iff_eq_none.mp hnone, Option.none_or]
          · rw [if_neg hname, if_neg fun heq => hname (beq_iff_eq.mp heq).symm, Option.or_none]

/-- The names stand in the order in which they first occur. -/
theorem names_firstByName (properties : List PropertyDescriptor) :
    Dictionary.names (firstByName properties) = (properties.map (·.name)).eraseDups := by
  induction properties using List.reverseRecOn with
  | nil => rfl
  | append_singleton properties p ih =>
      rw [firstByName_concat, List.map_append, List.map_singleton, eraseDups_concat,
        Dictionary.setNew]
      have hmem : (Dictionary.find? (firstByName properties) p.name).isSome ↔
          p.name ∈ properties.map (·.name) := by
        rw [Dictionary.isSome_find?_iff, ih, List.mem_eraseDups]
      by_cases h : p.name ∈ properties.map (·.name)
      · rw [if_pos (hmem.mpr h), if_pos h, ih]
      · rw [if_neg (mt hmem.mp h), if_neg h, Dictionary.names_set, ih,
          if_neg (mt List.mem_eraseDups.mp h)]

/-- The properties under their names are the first ones of the names. -/
theorem values_firstByName (properties : List PropertyDescriptor) :
    Dictionary.values (firstByName properties) =
      (properties.map (·.name)).eraseDups.filterMap (firstOf? properties) := by
  rw [Dictionary.values_eq_filterMap (keyed_firstByName properties).nodup, names_firstByName]
  exact List.filterMap_congr fun name _ => find?_firstByName properties name

/-- The values under their names have these names. -/
theorem map_name_values_firstByName (properties : List PropertyDescriptor) :
    (Dictionary.values (firstByName properties)).map (·.name) =
      (properties.map (·.name)).eraseDups := by
  rw [← names_firstByName, Dictionary.values, Dictionary.names, List.map_map]
  exact List.map_congr_left (keyed_firstByName properties).own

/-! ## Entries of the block -/

/-- The name that an entry of a static block is about. Only pairs of a key and a value count. -/
def entryName? : Property → Option String
  | .keyValue key _ => key.name?
  | _ => none

/-- The property that an entry of a static block is on its own. -/
def legacyProperty? (s : Surface) : Property → Option PropertyDescriptor
  | .keyValue key value =>
    key.name?.map fun name =>
      let options := value.entries?
      let option (key : String) : Option Source.Expr :=
        options.bind fun entries => Property.value? entries key
      let docs := s.file.docsAt [key.start]
      { name := name
        externalName := (((option "attribute").bind Source.Expr.string?).or docs.externalName).getD
          (Text.kebabCase name)
        schema :=
          match options with
          | some _ => ((option "type").map constructorSchema).getD .unconstrained
          | none => constructorSchema value
        required := false
        source := .legacy
        description := docs.description
        defaultValue := docs.defaultValue.or ((option "value").bind defaultValue?)
        deprecated := docs.deprecated }
  | _ => none

/-- The entries of the static block of a component. -/
def blockEntries (s : Surface) : List Property :=
  (s.implementedBy.bind legacyBlock?).getD []

/-- The properties that the entries of the static block are on their own. -/
def legacyProperties (s : Surface) : List PropertyDescriptor :=
  (blockEntries s).filterMap (legacyProperty? s)

/-- The property of an entry has the name of the entry. -/
theorem map_name_legacyProperty? (s : Surface) (entry : Property) :
    (legacyProperty? s entry).map (·.name) = entryName? entry := by
  cases entry with
  | keyValue key value =>
      rw [legacyProperty?, entryName?, Option.map_map]
      exact Option.map_id'
  | _ => rfl

/-- The properties of the entries have the names of the entries. -/
theorem map_name_legacyProperties (s : Surface) :
    (legacyProperties s).map (·.name) = (blockEntries s).filterMap entryName? := by
  rw [legacyProperties, List.map_filterMap]
  exact List.filterMap_congr fun entry _ => map_name_legacyProperty? s entry

/-- The properties of entries come from the block and are not required. -/
theorem legacyProperties_fields {p : PropertyDescriptor} (h : p ∈ legacyProperties s) :
    p.source = .legacy ∧ p.required = false := by
  obtain ⟨entry, -, hentry⟩ := List.mem_filterMap.mp h
  cases entry with
  | keyValue key value =>
      obtain ⟨name, -, rfl⟩ := Option.map_eq_some_iff.mp hentry
      exact ⟨rfl, rfl⟩
  | _ => cases hentry

/-- Fill in a description and a default that are missing. -/
def fillIn (p : PropertyDescriptor) (description : Option String) (value : Option Json) :
    PropertyDescriptor :=
  { p with
    description := p.description.or description
    defaultValue := p.defaultValue.or value }

/-- Complete the property of an entry's name, or add the entry's own. -/
def backfill (properties : Dictionary PropertyDescriptor) (e : PropertyDescriptor) :
    Dictionary PropertyDescriptor :=
  Dictionary.set properties e.name
    (match Dictionary.find? properties e.name with
      | some found => fillIn found e.description e.defaultValue
      | none => e)

/-- Taking in an entry completes a property or adds one. -/
theorem addLegacy_eq (s : Surface) (properties : Dictionary PropertyDescriptor)
    (entry : Property) :
    addLegacy s properties entry = ((legacyProperty? s entry).map (backfill properties)).getD
      properties := by
  cases entry with
  | keyValue key value =>
      rw [addLegacy, legacyProperty?]
      cases key.name? with
      | none => rfl
      | some name =>
          dsimp only [Option.map_some, Option.getD_some, backfill]
          cases Dictionary.find? properties name <;> rfl
  | _ => rfl

/-- The whole block is taken in entry by entry. -/
theorem foldl_addLegacy (s : Surface) (entries : List Property) :
    ∀ properties : Dictionary PropertyDescriptor, entries.foldl (addLegacy s) properties =
      (entries.filterMap (legacyProperty? s)).foldl backfill properties := by
  induction entries with
  | nil => exact fun _ => rfl
  | cons entry rest ih =>
      intro properties
      rw [List.foldl_cons, ih, addLegacy_eq, List.filterMap_cons]
      cases legacyProperty? s entry <;> rfl

/-! ## The block as a whole -/

/-- What the first entry of a name that says something says. -/
def said? {α : Type} (part : PropertyDescriptor → Option α) (block : List PropertyDescriptor)
    (name : String) : Option α :=
  block.findSome? fun e => if e.name = name then part e else none

/-- A property with its missing description and its missing default filled in from the entries of
    its name. -/
def filledFrom (block : List PropertyDescriptor) (p : PropertyDescriptor) : PropertyDescriptor :=
  fillIn p (said? (·.description) block p.name) (said? (·.defaultValue) block p.name)

section Filling

variable {α : Type} {part : PropertyDescriptor → Option α} {block : List PropertyDescriptor}
  {p e : PropertyDescriptor}

/-- A later entry counts where no earlier one says anything. -/
theorem said?_concat (block : List PropertyDescriptor) (e : PropertyDescriptor) (name : String) :
    said? part (block ++ [e]) name =
      (said? part block name).or (if e.name = name then part e else none) := by
  rw [said?, List.findSome?_append, List.findSome?_singleton]
  rfl

/-- Entries of other names say nothing. -/
theorem said?_eq_none {name : String} (h : name ∉ block.map (·.name)) :
    said? part block name = none := by
  rw [said?, List.findSome?_eq_none_iff]
  intro e he
  exact if_neg fun heq => h (List.mem_map.mpr ⟨e, he, heq⟩)

/-- Without entries nothing is filled in. -/
theorem filledFrom_nil (p : PropertyDescriptor) : filledFrom [] p = p := by
  rw [filledFrom, fillIn, said?, said?, List.findSome?_nil, List.findSome?_nil, Option.or_none,
    Option.or_none]

/-- One entry more fills in what is still missing. -/
theorem filledFrom_concat_of_eq (h : p.name = e.name) :
    filledFrom (block ++ [e]) p = fillIn (filledFrom block p) e.description e.defaultValue := by
  simp only [filledFrom, fillIn, said?_concat, if_pos h.symm, Option.or_assoc]

/-- An entry of another name fills nothing in. -/
theorem filledFrom_concat_of_ne (h : p.name ≠ e.name) :
    filledFrom (block ++ [e]) p = filledFrom block p := by
  simp only [filledFrom, said?_concat, if_neg h.symm, Option.or_none]

/-- The first entry of a name needs nothing from itself. -/
theorem filledFrom_concat_self (h : e.name ∉ block.map (·.name)) :
    filledFrom (block ++ [e]) e = e := by
  rw [filledFrom_concat_of_eq rfl, filledFrom, said?_eq_none h, said?_eq_none h, fillIn, fillIn]
  simp only [Option.or_none, Option.or_self]

end Filling

/-- The block completes what is first of its name, among the declared properties and its own
    entries. -/
theorem foldl_backfill (declared block : List PropertyDescriptor) :
    block.foldl backfill (firstByName declared) =
      (firstByName (declared ++ block)).map fun entry => (entry.1, filledFrom block entry.2) := by
  induction block using List.reverseRecOn with
  | nil =>
      rw [List.append_nil, List.foldl_nil]
      simp only [filledFrom_nil, Prod.mk.eta, List.map_id']
  | append_singleton block e ih =>
      have hkeyed := keyed_firstByName (declared ++ block)
      rw [List.foldl_append, ih, List.foldl_cons, List.foldl_nil, backfill,
        Dictionary.find?_map_values, ← List.append_assoc, firstByName_concat, Dictionary.setNew]
      -- Entries of the dictionary stand under their own names, so the others are left alone.
      have hothers : ∀ entry ∈ firstByName (declared ++ block), entry.1 ≠ e.name →
          filledFrom block entry.2 = filledFrom (block ++ [e]) entry.2 := fun entry hentry hne =>
        (filledFrom_concat_of_ne fun heq => hne ((hkeyed.own entry hentry).symm.trans heq)).symm
      cases hfound : Dictionary.find? (firstByName (declared ++ block)) e.name with
      | some p =>
          have hname : p.name = e.name := hkeyed.own _ (Dictionary.mem_of_find? hfound)
          rw [Option.isSome_some, if_pos rfl, Option.map_some]
          dsimp only
          rw [← filledFrom_concat_of_eq hname]
          exact Dictionary.set_map_values hkeyed.nodup hfound hothers
      | none =>
          have hnew : e.name ∉ Dictionary.names (firstByName (declared ++ block)) :=
            Dictionary.find?_eq_none_iff.mp hfound
          have hblock : e.name ∉ block.map (·.name) := by
            rw [names_firstByName, List.mem_eraseDups, List.map_append, List.mem_append] at hnew
            exact fun h => hnew (Or.inr h)
          rw [Option.isSome_none, if_neg Bool.false_ne_true, Option.map_none]
          dsimp only
          rw [Dictionary.set_of_notMem hnew, Dictionary.set_of_notMem
            (by rw [Dictionary.names_map_values]; exact hnew), List.map_append, List.map_singleton,
            filledFrom_concat_self hblock]
          congr 1
          refine List.map_congr_left fun entry hentry => ?_
          have hne : entry.1 ≠ e.name := fun heq =>
            hnew (heq ▸ List.mem_map_of_mem hentry)
          rw [hothers entry hentry hne]

/-- The properties of a component are the first of all names, completed from the block. -/
theorem properties_eq (w : Workspace) (s : Surface) :
    s.properties w = (Dictionary.values (firstByName
      (declaredProperties w s ++ legacyProperties s))).map (filledFrom (legacyProperties s)) := by
  have hblock : Dictionary.values (((legacyProperties s).foldl backfill
      (firstByName (declaredProperties w s)))) = (Dictionary.values (firstByName
        (declaredProperties w s ++ legacyProperties s))).map (filledFrom (legacyProperties s)) := by
    rw [foldl_backfill, Dictionary.values, Dictionary.values, List.map_map, List.map_map]
    rfl
  rw [← hblock, properties, legacyProperties, blockEntries]
  cases s.implementedBy.bind legacyBlock? with
  | none => rfl
  | some entries =>
      dsimp only [Option.getD_some]
      rw [foldl_addLegacy]

/-! ## Without the block -/

/-- A class without its static blocks of properties. -/
def withoutStaticBlock (value : ClassDef) : ClassDef :=
  { value with members := value.members.filter fun member => (legacyEntries? member).isNone }

/-- What a component shows if its class has no static block of properties. -/
def withoutBlock (s : Surface) : Surface :=
  { s with implementedBy := s.implementedBy.map withoutStaticBlock }

/-- A class without the block shows what the class shows without the block. -/
theorem withoutBlock_readClass (w : Workspace) (s : Surface) (value : ClassDef) :
    (s.readClass w value).withoutBlock = s.readClass w (withoutStaticBlock value) := by
  have hfold : ∀ (shapes : List (List ShapeMember)) (s : Surface),
      (shapes.foldl addShape s).withoutBlock = shapes.foldl addShape s.withoutBlock := by
    intro shapes
    induction shapes with
    | nil => exact fun _ => rfl
    | cons first rest ih => exact fun s => ih (s.addShape first)
  exact hfold _ _

/-- A static block is no field. -/
theorem ofMember?_of_legacyEntries? {c : Conventions} {member : ClassMember}
    (h : (legacyEntries? member).isSome) : FieldCandidate.ofMember? c member = none := by
  cases member with
  | field start modifiers decorators key type value =>
      rw [legacyEntries?] at h
      rw [FieldCandidate.ofMember?]
      cases hstatic : modifiers.isStatic with
      | true => rfl
      | false =>
          rw [hstatic] at h
          cases h
  | method start modifiers kind key value =>
      cases kind with
      | getter =>
          rw [legacyEntries?] at h
          rw [FieldCandidate.ofMember?]
          cases hstatic : modifiers.isStatic with
          | true => rfl
          | false =>
              rw [hstatic] at h
              cases h
      | _ => cases h
  | _ => cases h

/-- Without the block there is no block. -/
theorem legacyProperties_withoutBlock (s : Surface) : legacyProperties s.withoutBlock = [] := by
  have hblock : ∀ value : ClassDef, legacyBlock? (withoutStaticBlock value) = none := by
    intro value
    refine List.findSome?_eq_none_iff.mpr fun member hmember => ?_
    exact Option.isNone_iff_eq_none.mp (List.mem_filter.mp hmember).2
  rw [legacyProperties, blockEntries, withoutBlock, Option.bind_map]
  cases s.implementedBy with
  | none => rfl
  | some value =>
      rw [Option.bind_some, Function.comp_apply, hblock]
      rfl

/-- The declared properties are the same without the block. -/
theorem declaredProperties_withoutBlock (w : Workspace) (s : Surface) :
    declaredProperties w s.withoutBlock = declaredProperties w s := by
  have hfields : ∀ value : ClassDef, FieldCandidate.ofClass w.conventions
      (withoutStaticBlock value) = FieldCandidate.ofClass w.conventions value := by
    intro value
    rw [FieldCandidate.ofClass, FieldCandidate.ofClass, withoutStaticBlock, List.filterMap_filter]
    refine List.filterMap_congr fun member _ => ?_
    by_cases h : (legacyEntries? member).isSome
    · rw [ofMember?_of_legacyEntries? h]
      exact ite_self none
    · rw [if_pos (by simpa using h)]
  rw [declaredProperties_eq, declaredProperties_eq, fieldProperties, fieldProperties, withoutBlock]
  cases s.implementedBy with
  | none => rfl
  | some value =>
      dsimp only [Option.map_some]
      rw [hfields]
      rfl

/-- Without the block a component has the first declared property of each name. -/
theorem properties_withoutBlock (w : Workspace) (s : Surface) :
    s.withoutBlock.properties w = Dictionary.values (firstByName (declaredProperties w s)) := by
  rw [properties_eq, legacyProperties_withoutBlock, declaredProperties_withoutBlock,
    List.append_nil]
  exact (List.map_congr_left fun p _ => filledFrom_nil p).trans (List.map_id' _)

/-- **Static blocks**: without its static block a component has, for each name, the first property
    that a field or a member of the input shape declares.  With the block it has these in the same
    order, at most with a missing description and a missing default filled in from the block's
    entries of that name, and after them one property of the block for each name that the block has
    and they have not. -/
theorem static_block_only_backfills (w : Workspace) (s : Surface) :
    let declared := declaredProperties w s
    let without := s.withoutBlock.properties w
    without = (declared.map (·.name)).eraseDups.filterMap (firstOf? declared) ∧
      ∃ further, s.properties w = without.map (filledFrom (legacyProperties s)) ++ further ∧
        further.map (·.name) = ((blockEntries s).filterMap entryName?).eraseDups.filter
          (· ∉ without.map (·.name)) ∧
        ∀ p ∈ further, p.source = .legacy ∧ p.required = false := by
  intro declared without
  have hwithout : without = Dictionary.values (firstByName declared) :=
    properties_withoutBlock w s
  have hnames : without.map (·.name) = Dictionary.names (firstByName declared) := by
    rw [hwithout, map_name_values_firstByName, names_firstByName]
  -- The block's own properties are the first entries with new names.
  let new := (legacyProperties s).filter (·.name ∉ Dictionary.names (firstByName declared))
  have hall : firstByName (declared ++ legacyProperties s) =
      firstByName declared ++ firstByName new := by
    rw [firstByName, List.foldl_append]
    exact Dictionary.foldl_setNew_eq_append (·.name) (legacyProperties s) (firstByName declared)
  refine ⟨hwithout.trans (values_firstByName declared),
    (Dictionary.values (firstByName new)).map (filledFrom (legacyProperties s)), ?_, ?_, ?_⟩
  · rw [properties_eq, hwithout, ← List.map_append]
    congr 1
    rw [hall]
    exact List.map_append
  · have hkept : (Dictionary.values (firstByName new)).map
        ((·.name) ∘ filledFrom (legacyProperties s)) =
          (Dictionary.values (firstByName new)).map (·.name) := rfl
    rw [List.map_map, hkept, map_name_values_firstByName, hnames, ← map_name_legacyProperties,
      ← eraseDups_filter, List.filter_map]
    rfl
  · intro p hp
    obtain ⟨first, hfirst, rfl⟩ := List.mem_map.mp hp
    have hmem : first ∈ new := (keyed_firstByName new).of_mem_values first hfirst
    have hfields : first.source = .legacy ∧ first.required = false :=
      legacyProperties_fields (List.mem_filter.mp hmem).1
    exact hfields

end Surface

end ElementCatalog
