import ElementCatalog.Proofs.DeclaredNames
import ElementCatalog.Schema.NormalForm
import ElementCatalog.Types.Scope
import Mathlib.Data.List.Nodup

/-!
# Properties of objects — what an object says about a name

An object says of a name whether it is a property, with which schema, and whether it is required.
The route: the names of a dictionary after a write, then one equation for what each operation on
objects says about every name, and that each keeps the names consistent.
-/

namespace ElementCatalog

namespace Dictionary

variable {α : Type}

/-- The names after a write are the written one and those before. -/
theorem mem_names_set {entries : Dictionary α} {name other : String} {value : α} :
    other ∈ names (set entries name value) ↔ other = name ∨ other ∈ names entries := by
  rw [← isSome_find?_iff, find?_set, ← isSome_find?_iff]
  by_cases h : other = name
  · simp [h]
  · simp [h]

/-- Writing keeps every name standing once. -/
theorem nodup_names_set {entries : Dictionary α} (h : (names entries).Nodup) (name : String)
    (value : α) : (names (set entries name value)).Nodup := by
  induction entries with
  | nil => simp [set, names]
  | cons entry rest ih =>
      obtain ⟨n, v⟩ := entry
      obtain ⟨hn, hrest⟩ := List.nodup_cons.mp h
      rw [set]
      by_cases hname : n = name
      · rw [if_pos hname]
        exact List.nodup_cons.mpr ⟨hn, hrest⟩
      · rw [if_neg hname]
        refine List.nodup_cons.mpr ⟨fun hmem => ?_, ih hrest⟩
        rcases mem_names_set.mp hmem with heq | hmem
        · exact hname heq
        · exact hn hmem

end Dictionary

namespace ObjectSchema

variable {object other : ObjectSchema} {name n : String} {schema : Schema} {required : Bool}

/-! ## Names -/

/-- The object without properties has its names in order. -/
theorem NamesConsistent.empty : NamesConsistent empty :=
  ⟨List.nodup_nil, List.nodup_nil, fun _ h => absurd h List.not_mem_nil⟩

/-- Which names are required after a property is written. -/
theorem mem_required_insert :
    n ∈ (object.insert name schema required).required ↔
      if n = name then required = true else n ∈ object.required := by
  cases required with
  | true =>
      simp only [insert, if_true, List.mem_append, List.mem_filter, List.mem_singleton]
      by_cases h : n = name
      · simp [h]
      · simp [h]
  | false =>
      simp only [insert, Bool.false_eq_true, if_false, List.mem_filter]
      by_cases h : n = name
      · simp [h]
      · simp [h]

/-- Writing a property keeps the names in order. -/
theorem NamesConsistent.insert (h : object.NamesConsistent) (name : String) (schema : Schema)
    (required : Bool) : (object.insert name schema required).NamesConsistent := by
  have hothers : (object.required.filter (· != name)).Nodup := h.required.filter _
  refine ⟨Dictionary.nodup_names_set h.properties name schema, ?_, fun n hn => ?_⟩
  · cases required with
    | false => exact hothers
    | true =>
        refine List.nodup_append.mpr ⟨hothers, List.nodup_singleton name, ?_⟩
        intro a ha b hb hab
        rw [hab, List.mem_singleton.mp hb] at ha
        simp at ha
  · have hmem := mem_required_insert.mp hn
    refine Dictionary.mem_names_set.mpr ?_
    by_cases hname : n = name
    · exact Or.inl hname
    · rw [if_neg hname] at hmem
      exact Or.inr (h.own n hmem)

/-- Writing properties of other objects keeps the names in order. -/
theorem NamesConsistent.foldl {α : Type} {step : ObjectSchema → α → ObjectSchema}
    (hstep : ∀ object a, NamesConsistent object → NamesConsistent (step object a)) (items : List α)
    (h : object.NamesConsistent) : (items.foldl step object).NamesConsistent := by
  induction items generalizing object with
  | nil => exact h
  | cons a rest ih => exact ih (hstep object a h)

/-- Merging keeps the names in order, whatever is merged. -/
theorem NamesConsistent.merge (h : object.NamesConsistent) (other : ObjectSchema) :
    (object.merge other).NamesConsistent :=
  foldl (fun _ p hmerged => hmerged.insert p.1 p.2 _) _ h

/-- What a test leaves of an object has its names in order. -/
theorem NamesConsistent.restrict (object : ObjectSchema) (keep : String → Bool) :
    (object.restrict keep).NamesConsistent := by
  refine foldl (fun kept p hkept => ?_) _ .empty
  cases hkeep : keep p.1 with
  | true =>
      simp only [hkeep, if_true]
      exact hkept.insert p.1 p.2 _
  | false =>
      simp only [hkeep, Bool.false_eq_true, if_false]
      exact hkept

/-- Writing properties one after another keeps the names in order. -/
theorem NamesConsistent.insertAll (h : object.NamesConsistent) (entries : List PropertyEntry) :
    (object.insertAll entries).NamesConsistent :=
  foldl (fun _ e hobject => hobject.insert e.name e.schema e.required) _ h

/-! ## What an object says of a name -/

/-- What an object says of a name: the schema of its property, and whether it is required. -/
def property? (object : ObjectSchema) (n : String) : Option (Schema × Bool) :=
  (Dictionary.find? object.properties n).map fun schema => (schema, object.required.contains n)

/-- The object without properties says nothing. -/
theorem property?_empty (n : String) : empty.property? n = none :=
  rfl

/-- A written property is what was written; every other name is left alone. -/
theorem property?_insert (object : ObjectSchema) (name : String) (schema : Schema)
    (required : Bool) (n : String) :
    (object.insert name schema required).property? n =
      if n = name then some (schema, required) else object.property? n := by
  have hfind : Dictionary.find? (object.insert name schema required).properties n =
      if n = name then some schema else Dictionary.find? object.properties n :=
    Dictionary.find?_set object.properties name n schema
  have hrequired : (object.insert name schema required).required.contains n =
      if n = name then required else object.required.contains n := by
    rw [Bool.eq_iff_iff, List.contains_iff_mem, mem_required_insert]
    split
    · exact Iff.rfl
    · exact List.contains_iff_mem.symm
  rw [property?, property?, hfind, hrequired]
  split
  · rfl
  · rfl

/-- The last entry of a name. -/
def lastWrite? (entries : List PropertyEntry) (n : String) : Option PropertyEntry :=
  entries.reverse.find? (·.name == n)

/-- A first entry counts if no later one has its name. -/
theorem lastWrite?_cons (e : PropertyEntry) (rest : List PropertyEntry) (n : String) :
    lastWrite? (e :: rest) n = (lastWrite? rest n).or (if n = e.name then some e else none) := by
  rw [lastWrite?, List.reverse_cons, List.find?_append, lastWrite?]
  congr 1
  by_cases h : n = e.name
  · simp [h]
  · simp [h, Ne.symm h]

/-- Where every name stands once, the last entry of a name is the entry of that name. -/
theorem lastWrite?_eq_some_iff {entries : List PropertyEntry}
    (h : (entries.map (·.name)).Nodup) {n : String} {e : PropertyEntry} :
    lastWrite? entries n = some e ↔ e ∈ entries ∧ e.name = n := by
  induction entries generalizing e with
  | nil => simp [lastWrite?]
  | cons first rest ih =>
      obtain ⟨hfirst, hrest⟩ := List.nodup_cons.mp h
      rw [lastWrite?_cons, Option.or_eq_some_iff, ih hrest, List.mem_cons]
      constructor
      · rintro (⟨hmem, hname⟩ | ⟨-, hlast⟩)
        · exact ⟨Or.inr hmem, hname⟩
        · split at hlast
          · rename_i hname
            cases hlast
            exact ⟨Or.inl rfl, hname.symm⟩
          · cases hlast
      · rintro ⟨rfl | hmem, hname⟩
        · -- No later entry has the name of the first one.
          refine Or.inr ⟨?_, by rw [if_pos hname.symm]⟩
          cases hlater : lastWrite? rest n with
          | none => rfl
          | some later =>
              obtain ⟨hmem, hlater⟩ := (ih hrest).mp hlater
              exact absurd (List.mem_map.mpr ⟨later, hmem, hlater.trans hname.symm⟩) hfirst
        · exact Or.inl ⟨hmem, hname⟩

/-- Of the properties that are written one after another, the last of a name counts. -/
theorem property?_insertAll (object : ObjectSchema) (entries : List PropertyEntry) (n : String) :
    (object.insertAll entries).property? n =
      ((lastWrite? entries n).map fun e => (e.schema, e.required)).or (object.property? n) := by
  induction entries generalizing object with
  | nil => rfl
  | cons e rest ih =>
      show ((object.insert e.name e.schema e.required).insertAll rest).property? n = _
      rw [ih, property?_insert, lastWrite?_cons]
      cases lastWrite? rest n with
      | some later => rfl
      | none =>
          by_cases h : n = e.name
          · rw [if_pos h, if_pos h]
            rfl
          · rw [if_neg h, if_neg h]
            rfl

/-- The properties of an object as entries. -/
def entries (object : ObjectSchema) : List PropertyEntry :=
  object.properties.map fun p => ⟨p.1, p.2, object.required.contains p.1⟩

/-- Where every name stands once, the last entry of a name is what the object says of it. -/
theorem lastWrite?_entries (h : (Dictionary.names object.properties).Nodup) (n : String) :
    ((lastWrite? object.entries n).map fun e => (e.schema, e.required)) = object.property? n := by
  obtain ⟨properties, required⟩ := object
  rw [entries, property?]
  dsimp only at h ⊢
  induction properties with
  | nil => rfl
  | cons p rest ih =>
      obtain ⟨hp, hrest⟩ := List.nodup_cons.mp h
      rw [List.map_cons, lastWrite?_cons, Option.map_or, ih hrest, Dictionary.find?]
      by_cases hn : n = p.1
      · -- a name that stands once is not found again
        subst hn
        have hnone : Dictionary.find? rest p.1 = none := Dictionary.find?_eq_none_iff.mpr hp
        rw [hnone, if_pos rfl, if_pos rfl]
        rfl
      · rw [if_neg hn, if_neg (Ne.symm hn), Option.map_none, Option.or_none]

/-- Merging writes the entries of the other object. -/
theorem merge_eq_insertAll (object other : ObjectSchema) :
    object.merge other = object.insertAll other.entries := by
  rw [merge, insertAll, entries, List.foldl_map]

/-- After a merge an object says what the other one says, and otherwise what it said before. -/
theorem property?_merge (object : ObjectSchema)
    (h : (Dictionary.names other.properties).Nodup) (n : String) :
    (object.merge other).property? n = (other.property? n).or (object.property? n) := by
  rw [merge_eq_insertAll, property?_insertAll, lastWrite?_entries h]

/-- Restricting writes the entries that satisfy the test. -/
theorem restrict_eq_insertAll (object : ObjectSchema) (keep : String → Bool) :
    object.restrict keep = empty.insertAll (object.entries.filter fun e => keep e.name) := by
  rw [restrict, insertAll, List.foldl_filter, entries, List.foldl_map]

/-- The last of the entries that satisfy a test on names. -/
theorem lastWrite?_filter (entries : List PropertyEntry) (keep : String → Bool) (n : String) :
    lastWrite? (entries.filter fun e => keep e.name) n =
      if keep n then lastWrite? entries n else none := by
  induction entries with
  | nil => cases keep n <;> rfl
  | cons e rest ih =>
      rw [lastWrite?_cons, List.filter_cons]
      by_cases hn : n = e.name
      · subst hn
        cases hkeep : keep e.name with
        | true => rw [if_pos rfl, lastWrite?_cons, ih, hkeep, if_pos rfl, if_pos rfl, if_pos rfl]
        | false =>
            rw [hkeep] at ih
            rw [if_neg Bool.false_ne_true, ih]
            rfl
      · rw [if_neg hn, Option.or_none]
        cases hkeep : keep e.name with
        | true => rw [if_pos rfl, lastWrite?_cons, if_neg hn, Option.or_none, ih]
        | false => rw [if_neg Bool.false_ne_true, ih]

/-- A restricted object says of the names that satisfy the test what it said before. -/
theorem property?_restrict (h : (Dictionary.names object.properties).Nodup)
    (keep : String → Bool) (n : String) :
    (object.restrict keep).property? n = if keep n then object.property? n else none := by
  rw [restrict_eq_insertAll, property?_insertAll, lastWrite?_filter, property?_empty,
    Option.or_none]
  split
  · exact lastWrite?_entries h n
  · rfl

/-- Without required names an object says the same schemas. -/
theorem property?_withNothingRequired (object : ObjectSchema) (n : String) :
    ObjectSchema.property? { object with required := [] } n =
      (object.property? n).map fun said => (said.1, false) := by
  rw [property?, property?, Option.map_map]
  rfl

/-- With all names required an object says the same schemas. -/
theorem property?_withAllRequired (object : ObjectSchema) (n : String) :
    ObjectSchema.property? { object with required := Dictionary.names object.properties } n =
      (object.property? n).map fun said => (said.1, true) := by
  rw [property?, property?, Option.map_map]
  cases hfind : Dictionary.find? object.properties n with
  | none => rfl
  | some schema =>
      have hmem : n ∈ Dictionary.names object.properties :=
        Dictionary.isSome_find?_iff.mp (by rw [hfind]; rfl)
      have hcontains : (Dictionary.names object.properties).contains n = true :=
        List.contains_iff_mem.mpr hmem
      rw [Option.map_some, Option.map_some, hcontains]
      rfl

end ObjectSchema

end ElementCatalog
