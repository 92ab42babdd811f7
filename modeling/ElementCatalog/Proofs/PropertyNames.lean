import ElementCatalog.Proofs.JsonRoundTrip
import ElementCatalog.Proofs.KeptShapes
import ElementCatalog.Proofs.RepeatedDeclarations

/-!
# Property names — which names are invented

Every name in a schema, at every depth, is one that a key is read as, and a key is read as the name
that it gives to its member, with three exceptions: an identifier in brackets is read as if it stood
without them, a number is spelled without an exponent, and the entry that sets the prototype of an
object is read as a field.  Toward: no name of a type literal, an interface or an object literal is
invented exactly if each misread name is given by another member.  The route:

* texts of numbers with and without an exponent are told apart by the letter;
* that all names of a schema are allowed is a kept property, so it holds of all types and shapes;
* the names of an object, a shape and an object literal are those that its keys are read as.
-/

namespace ElementCatalog

open Source (Position WrittenKey TypeExpr TypeMember Property Expr Key MemberKey InterfaceDecl
  EntityName keysOfMembers keysOfProperties misreadNames InventsNone AllowedKeys)
open ElementCatalog.Types

/-! ## Texts of numbers -/

namespace Decimal

/-- A number names a member by its plain text: it is no infinity, and its exponent is moderate
    unless it is zero. -/
def NamesPlainly (x : Float) : Prop :=
  match Binary.ofFloat x with
  | .nan => True
  | .infinite _ => False
  | .finite negative mantissa exponent =>
    if mantissa = 0 then negative = false
    else IsModerate (shortest mantissa exponent).1 (shortest mantissa exponent).2

/-- The digits of a number are no letters. -/
theorem e_notMem_digitsOf (n : Nat) : 'e' ∉ digitsOf n := by
  intro h
  rw [digitsOf, Nat.toList_repr] at h
  exact absurd (Json.isDigit_of_mem_toDigits h) (by decide)

/-- A text without an exponent has no mark of one. -/
theorem e_notMem_positional (n : Nat) (place : Int) : 'e' ∉ (positional n place "").toList := by
  have hdigits := e_notMem_digitsOf n
  have hzeros (k : Nat) : 'e' ∉ List.replicate k '0' := by
    intro h
    exact absurd (List.eq_of_mem_replicate h) (by decide)
  rw [positional]
  split
  · simp [hdigits, hzeros]
  · have hpadded (k : Nat) : 'e' ∉ List.replicate k '0' ++ digitsOf n := by
      simp [hdigits, hzeros]
    simp only [String.toList_append, String.toList_ofList, List.mem_append, not_or]
    refine ⟨⟨fun h => hpadded _ (List.mem_of_mem_take h), by decide⟩, ?_⟩
    exact fun h => hpadded _ (List.mem_of_mem_drop h)

/-- A text with an exponent has its mark. -/
theorem e_mem_scientific (n : Nat) (place : Int) : 'e' ∈ (scientific n place).toList := by
  rw [scientific]
  simp only [String.toList_append, List.mem_append]
  refine Or.inl (Or.inr ?_)
  split <;> decide

/-- Exactly when the plain text of a number is the one that it names a member by. -/
theorem plain_eq_keyText_iff (x : Float) : plain x = keyText x ↔ NamesPlainly x := by
  rw [plain, keyText, NamesPlainly]
  cases Binary.ofFloat x with
  | nan => exact iff_of_true rfl trivial
  | infinite negative => cases negative <;> decide
  | finite negative mantissa exponent =>
      by_cases hzero : mantissa = 0
      · simp only [if_pos hzero, shortest]
        cases negative <;> decide
      · simp only [if_neg hzero]
        by_cases hmoderate :
            IsModerate (shortest mantissa exponent).1 (shortest mantissa exponent).2
        · rw [if_pos hmoderate]
          exact iff_of_true rfl hmoderate
        · rw [if_neg hmoderate]
          refine iff_of_false (fun heq => ?_) hmoderate
          have hbody := (String.append_right_inj _).mp heq
          exact e_notMem_positional _ _ (hbody ▸ e_mem_scientific _ _)

end Decimal

/-! ## What keys are read as -/

namespace Source

/-- The names of identifiers in brackets are read, and they are not given. -/
theorem MemberKey.bracketed?_eq_some_iff (key : MemberKey) (name : String) :
    key.bracketed? = some name ↔ key.name? = some name ∧ key.givenName? ≠ some name := by
  cases key with
  | ident text computed => cases computed <;> simp [bracketed?, name?, givenName?]
  | literal value => simp [bracketed?, name?, givenName?]

/-- The plain text of a number is read, and it is not given where it is misread. -/
theorem Key.misread?_eq_some_iff (key : Key) (name : String) :
    key.misread? = some name ↔ key.name? = some name ∧ key.givenName? ≠ some name := by
  have hnone : none ≠ some name := (Option.some_ne_none name).symm
  cases key with
  | number start x =>
      rw [misread?, name?, givenName?]
      by_cases hsame : Decimal.plain x = Decimal.keyText x
      · rw [if_pos hsame, hsame]
        exact iff_of_false hnone fun h => h.2 h.1
      · rw [if_neg hsame]
        refine ⟨fun h => ⟨h, fun hgiven => hsame ?_⟩, And.left⟩
        exact Option.some.inj (h.trans hgiven.symm)
  | computed start value => exact iff_of_false hnone fun h => hnone h.1
  | _ => exact iff_of_false hnone fun h => h.2 h.1

/-- A number key is read rightly exactly if the number names by its plain text. -/
theorem Key.misread?_number_eq_none_iff (start : Position) (x : Float) :
    (Key.number start x).misread? = none ↔ Decimal.NamesPlainly x := by
  rw [misread?, ← Decimal.plain_eq_keyText_iff]
  simp

/-- One name among those that are read and given alike gives no field: it is misread, too. -/
theorem misread_or_filter_iff {misread read given : Option String}
    (h : ∀ name, misread = some name ↔ read = some name ∧ given ≠ some name)
    (reserved name : String) :
    misread.or (read.filter (· == reserved)) = some name ↔
      read = some name ∧ given.filter (· != reserved) ≠ some name := by
  rw [Option.or_eq_some_iff, h]
  simp only [Option.filter_eq_some_iff, beq_iff_eq, bne_iff_ne, ne_eq]
  constructor
  · rintro (⟨hread, hgiven⟩ | ⟨-, hread, hname⟩)
    · exact ⟨hread, fun hfield => hgiven hfield.1⟩
    · exact ⟨hread, fun hfield => hfield.2 hname⟩
  · rintro ⟨hread, hfield⟩
    by_cases hgiven : given = some name
    · refine Or.inr ⟨?_, hread, not_not.mp fun hname => hfield ⟨hgiven, hname⟩⟩
      -- No other name is read, so none is misread.
      refine Option.eq_none_iff_forall_ne_some.mpr fun other hother => ?_
      have hother := (h other).mp hother
      exact hother.2 (hgiven.trans (hread.symm.trans hother.1))
    · exact Or.inl ⟨hread, hgiven⟩

/-- **Keys**: a name is misread of a key exactly if the key is read as this name and does not give
    it to its member. -/
theorem WrittenKey.misread?_eq_some_iff (k : WrittenKey) (name : String) :
    k.misread? = some name ↔ k.readName? = some name ∧ k.givenName? ≠ some name := by
  have hnone : none ≠ some name := (Option.some_ne_none name).symm
  cases k with
  | member key => exact key.bracketed?_eq_some_iff name
  | field key => exact key.misread?_eq_some_iff name
  | entry property =>
      cases property with
      | keyValue key value =>
          have hkey := misread_or_filter_iff key.misread?_eq_some_iff prototypeKey name
          cases key with
          | computed => exact iff_of_false hnone fun h => hnone h.1
          | _ => exact hkey
      | shorthand => exact iff_of_false hnone fun h => h.2 h.1
      | _ => exact iff_of_false hnone fun h => hnone h.1

/-- Where exactly inherited names and those that some of the keys are read as stand, none is
    invented exactly if none of the misread names of these keys is. -/
theorem inventsNone_iff (inherited : List String) {names others : List String}
    {declared keys : List WrittenKey}
    (hnames : ∀ name, name ∈ names ↔
      name ∈ inherited ∨ name ∈ declared.filterMap WrittenKey.readName?)
    (hinherited : inherited ⊆ others) (hkeys : declared ⊆ keys) :
    InventsNone names keys others ↔ InventsNone (misreadNames declared) keys others := by
  constructor
  · intro h name hname
    obtain ⟨k, hk, hmisread⟩ := List.mem_filterMap.mp hname
    have hread := ((k.misread?_eq_some_iff name).mp hmisread).1
    exact h name ((hnames name).mpr (Or.inr (List.mem_filterMap.mpr ⟨k, hk, hread⟩)))
  · intro h name hname
    rcases (hnames name).mp hname with hname | hdeclared
    · exact Or.inr (hinherited hname)
    · obtain ⟨k, hk, hread⟩ := List.mem_filterMap.mp hdeclared
      by_cases hgiven : k.givenName? = some name
      · exact Or.inl (List.mem_filterMap.mpr ⟨k, hkeys hk, hgiven⟩)
      · have hmisread := (k.misread?_eq_some_iff name).mpr ⟨hread, hgiven⟩
        exact h name (List.mem_filterMap.mpr ⟨k, hk, hmisread⟩)

end Source

/-! ## Names of schemas -/

/-- The names of properties and those in their schemas. -/
theorem mem_namesOfProperties {properties : List (String × Schema)} {name : String} :
    name ∈ namesOfProperties properties ↔
      ∃ p ∈ properties, name = p.1 ∨ name ∈ p.2.allNames := by
  induction properties with
  | nil => simp [namesOfProperties]
  | cons p rest ih =>
      rw [namesOfProperties, List.cons_append, List.mem_cons, List.mem_append, ih,
        List.exists_mem_cons_iff, or_assoc]

/-- The names in several schemas. -/
theorem mem_namesOfMembers {members : List Schema} {name : String} :
    name ∈ namesOfMembers members ↔ ∃ member ∈ members, name ∈ member.allNames := by
  induction members with
  | nil => simp [namesOfMembers]
  | cons member rest ih =>
      rw [namesOfMembers, List.mem_append, ih, List.exists_mem_cons_iff]

/-- All names in a schema are allowed. -/
def Schema.NamedFrom (allowed : String → Prop) (s : Schema) : Prop :=
  ∀ name ∈ s.allNames, allowed name

namespace Schema

variable {allowed : String → Prop}

/-- A schema without names. -/
theorem namedFrom_of_nil {s : Schema} (h : s.allNames = []) : s.NamedFrom allowed := by
  intro name hname
  rw [h] at hname
  exact absurd hname List.not_mem_nil

/-- The names of an object are those of its properties, those in their schemas and the required
    ones. -/
theorem namedFrom_object {shape : ObjectSchema} : (Schema.object shape).NamedFrom allowed ↔
    (∀ p ∈ shape.properties, allowed p.1 ∧ p.2.NamedFrom allowed) ∧
      ∀ name ∈ shape.required, allowed name := by
  obtain ⟨properties, required⟩ := shape
  rw [NamedFrom, allNames, ObjectSchema.allNames, List.forall_mem_append]
  refine and_congr_left fun _ => ?_
  simp only [mem_namesOfProperties]
  constructor
  · exact fun h p hp =>
      ⟨h p.1 ⟨p, hp, Or.inl rfl⟩, fun name hname => h name ⟨p, hp, Or.inr hname⟩⟩
  · rintro h name ⟨p, hp, rfl | hname⟩
    · exact (h p hp).1
    · exact (h p hp).2 name hname

/-- The names of alternatives are those in each of them. -/
theorem namedFrom_alternatives {members : List Schema} :
    (Schema.alternatives members).NamedFrom allowed ↔
      ∀ member ∈ members, member.NamedFrom allowed := by
  simp only [NamedFrom, allNames, mem_namesOfMembers]
  exact ⟨fun h member hmember name hname => h name ⟨member, hmember, hname⟩,
    fun h name ⟨member, hmember, hname⟩ => h member hmember name hname⟩

/-- What holds of the members of a union, and is handed down by nested alternatives, holds of the
    distinct members. -/
theorem forall_mem_distinctMembers? {P : Schema → Prop}
    (hopen : ∀ {nested}, P (.alternatives nested) → ∀ member ∈ nested, P member)
    {members : List Schema} : (∀ member ∈ members, P member) → ∀ {found distinct : List Schema},
      (∀ member ∈ found, P member) → distinctMembers? found members = some distinct →
        ∀ member ∈ distinct, P member := by
  have hadd : ∀ {found : List Schema}, (∀ member ∈ found, P member) → ∀ {schema}, P schema →
      ∀ member ∈ addNew found schema, P member := by
    intro found hfound schema hschema
    rw [addNew]
    split
    · exact hfound
    · exact List.forall_mem_append.mpr ⟨hfound, List.forall_mem_singleton.mpr hschema⟩
  induction members with
  | nil =>
      intro _ found distinct hfound heq
      cases heq
      exact hfound
  | cons member rest ih =>
      intro hmembers found distinct hfound heq
      obtain ⟨hmember, hrest⟩ := List.forall_mem_cons.mp hmembers
      cases member with
      | alternatives nested =>
          refine ih hrest ?_ heq
          exact List.foldlRecOn (motive := fun found => ∀ member ∈ found, P member) nested _ hfound
            fun _ hfound schema hschema => hadd hfound (hopen hmember schema hschema)
      | unconstrained => cases heq
      | _ => exact ih hrest (hadd hfound hmember) heq

/-- Merged enumerations have no names. -/
theorem allNames_of_mergeEnumerations? {members : List Schema} {merged : Schema}
    (h : mergeEnumerations? members = some merged) : merged.allNames = [] := by
  rw [mergeEnumerations?.eq_def] at h
  split at h
  · obtain ⟨lists, -, rfl⟩ := Option.map_eq_some_iff.mp h
    rfl
  · cases h

/-- Merged kinds have no names. -/
theorem allNames_of_mergeKinds? {members : List Schema} {merged : Schema}
    (h : mergeKinds? members = some merged) : merged.allNames = [] := by
  obtain ⟨lists, -, rfl⟩ := Option.map_eq_some_iff.mp h
  split <;> rfl

/-- Where all names of the members are allowed, those of their union are. -/
theorem namedFrom_union {members : List Schema} (h : ∀ member ∈ members, member.NamedFrom allowed) :
    (union members).NamedFrom allowed := by
  rw [union]
  cases hdistinct : distinctMembers? [] members with
  | none => exact namedFrom_of_nil rfl
  | some distinct =>
      have hall := forall_mem_distinctMembers? (fun hnested => namedFrom_alternatives.mp hnested) h
        (fun _ hnone => absurd hnone List.not_mem_nil) hdistinct
      cases distinct with
      | nil => exact namedFrom_of_nil rfl
      | cons first rest =>
          cases rest with
          | nil => exact hall first List.mem_cons_self
          | cons second others =>
              dsimp only
              cases henum : mergeEnumerations? (first :: second :: others) with
              | some merged => exact namedFrom_of_nil (allNames_of_mergeEnumerations? henum)
              | none =>
                  cases hbare : mergeKinds? (first :: second :: others) with
                  | some merged => exact namedFrom_of_nil (allNames_of_mergeKinds? hbare)
                  | none => exact namedFrom_alternatives.mpr hall

/-- That all names are allowed is a kept property. -/
theorem kept_namedFrom (allowed : String → Prop) : Kept allowed (NamedFrom allowed) where
  unconstrained := namedFrom_of_nil rfl
  primitive _ _ := namedFrom_of_nil rfl
  literal _ := namedFrom_of_nil rfl
  array := Iff.rfl
  union := namedFrom_union
  empty := namedFrom_of_nil rfl
  insert hshape hname hschema required := by
    obtain ⟨hproperties, hrequired⟩ := namedFrom_object.mp hshape
    refine namedFrom_object.mpr ⟨fun p hp => ?_, fun n hn => ?_⟩
    · rcases Dictionary.mem_of_mem_set hp with heq | hp
      · rw [heq]
        exact ⟨hname, hschema⟩
      · exact hproperties p hp
    · rw [ObjectSchema.mem_required_insert] at hn
      split at hn
      · next heq => exact heq ▸ hname
      · exact hrequired n hn
  properties hshape := (namedFrom_object.mp hshape).1
  nothingRequired hshape :=
    namedFrom_object.mpr ⟨(namedFrom_object.mp hshape).1, fun _ h => absurd h List.not_mem_nil⟩
  allRequired hshape := by
    refine namedFrom_object.mpr ⟨(namedFrom_object.mp hshape).1, fun name hname => ?_⟩
    obtain ⟨p, hp, rfl⟩ := List.mem_map.mp hname
    exact ((namedFrom_object.mp hshape).1 p hp).1
  keys _ := by
    rw [keysSchema.eq_def]
    split
    · split <;> exact namedFrom_of_nil rfl
    · exact namedFrom_of_nil rfl

end Schema

/-! ## Where names come from -/

namespace Workspace

/-- A key stands in a text, or in the declaration of a type. -/
def HasKey (w : Workspace) (keys : List WrittenKey) (k : WrittenKey) : Prop :=
  k ∈ keys ∨ ∃ d, w.Declares .type d ∧ k ∈ d.writtenKeys

/-- A name is one that a key of a text or of a declared type is read as, or it occurs in what a type
    parameter stands for. -/
def ReadsName (w : Workspace) (scope : Scope) (keys : List WrittenKey) (name : String) : Prop :=
  (∃ k, w.HasKey keys k ∧ k.readName? = some name) ∨
    ∃ bound ∈ scope.bindings, name ∈ bound.2.allNames

variable {w : Workspace} {scope : Scope} {keys : List WrittenKey}

/-- The keys of a text are read as such names. -/
theorem allowedKeys_readsName : AllowedKeys (w.ReadsName scope keys) keys :=
  fun k hk _ hname => Or.inl ⟨k, Or.inl hk, hname⟩

/-- The keys of declared types are read as such names. -/
theorem allowedKeys_readsName_of_declares {d : Declaration} (hd : w.Declares .type d) :
    AllowedKeys (w.ReadsName scope keys) d.writtenKeys :=
  fun k hk _ hname => Or.inl ⟨k, Or.inr ⟨d, hd, hk⟩, hname⟩

/-- The names in what type parameters stand for are such names. -/
theorem all_namedFrom_readsName : scope.All (Schema.NamedFrom (w.ReadsName scope keys)) :=
  fun _ _ hfound _ hname => Or.inr ⟨_, Dictionary.mem_of_find? hfound, hname⟩

/-- Every name in the schema of a type is one that a key is read as. -/
theorem schemaIn_namedFrom {type : TypeExpr}
    (htype : AllowedKeys (w.ReadsName scope keys) type.writtenKeys) :
    (w.schemaIn scope type).NamedFrom (w.ReadsName scope keys) :=
  (Schema.kept_namedFrom _).schemaIn (fun _ => allowedKeys_readsName_of_declares)
    all_namedFrom_readsName htype

/-- The members of a type have names that keys are read as. -/
theorem readsName_of_mem_membersIn {type : TypeExpr} {m : ShapeMember}
    (hm : m ∈ w.membersIn scope type) : w.ReadsName scope type.writtenKeys m.name :=
  ((Schema.kept_namedFrom _).membersIn (fun _ => allowedKeys_readsName_of_declares)
    all_namedFrom_readsName allowedKeys_readsName m hm).name

/-- Every name in the schema of literal data is one that a key is read as. -/
theorem inferred?_namedFrom {e : Expr} {schema : Schema}
    (he : inferred? (w.schemaIn scope) e = some schema) :
    schema.NamedFrom (w.ReadsName scope e.writtenKeys) :=
  (Schema.kept_namedFrom _).inferred? (fun _ => schemaIn_namedFrom) e allowedKeys_readsName schema
    he

end Workspace

/-! ## Names of objects and shapes -/

/-- The names of the properties of a schema, if it is that of an object. -/
def Schema.propertyNames : Schema → List String
  | .object shape => shape.propertyNames
  | _ => []

namespace Types

variable {w : Workspace} {expand : Expand} {e : Expander} {scope : Scope}

/-- The names that an object type uses for properties are those that the keys of its properties are
    read as. -/
theorem mem_ofMembers_property_iff {members : List TypeMember} {name : String} :
    ⟨name, false⟩ ∈ NameUse.ofMembers members ↔
      name ∈ (keysOfProperties members).filterMap WrittenKey.readName? := by
  rw [NameUse.ofMembers, keysOfProperties, List.filterMap_filterMap, List.mem_filterMap,
    List.mem_filterMap]
  refine exists_congr fun member => and_congr_right fun _ => ?_
  cases member <;> simp [NameUse.ofMember?, TypeMember.propertyKey?, WrittenKey.readName?]

/-- The names that an object type uses are those that its keys are read as. -/
theorem map_name_ofMembers (members : List TypeMember) :
    (NameUse.ofMembers members).map (·.name) =
      (keysOfMembers members).filterMap WrittenKey.readName? := by
  rw [NameUse.ofMembers, List.map_filterMap, keysOfMembers, List.filterMap_filterMap]
  refine List.filterMap_congr fun member _ => ?_
  cases member <;>
    simp [NameUse.ofMember?, TypeMember.key?, WrittenKey.readName?, Option.map_map,
      Function.comp_def]

/-- The keys of properties are keys of members. -/
theorem keysOfProperties_subset (members : List TypeMember) :
    keysOfProperties members ⊆ keysOfMembers members := by
  intro k hk
  obtain ⟨member, hmember, hkey⟩ := List.mem_filterMap.mp hk
  refine List.mem_filterMap.mpr ⟨member, hmember, ?_⟩
  cases member with
  | property | getter => exact hkey
  | method | other => cases hkey

/-- The names that the clauses of an interface bring into its schema. -/
def inheritedNames (w : Workspace) (expand : Expand) (scope : Scope) (decl : InterfaceDecl) :
    List String :=
  decl.parents.flatMap fun parent =>
    ((clauseObject? w expand scope parent).map ObjectSchema.propertyNames).getD []

/-- The names that the clauses of an interface bring into its shape. -/
def inheritedMemberNames (w : Workspace) (e : Expander) (scope : Scope) (decl : InterfaceDecl) :
    List String :=
  decl.parents.flatMap fun parent => memberNames (clauseMembers w e scope parent)

/-- The names of an interface's schema are the inherited ones and those that the keys of its own
    properties are read as. -/
theorem mem_propertyNames_interfaceSchema {decl : InterfaceDecl} {name : String} :
    name ∈ (interfaceSchema w expand scope decl).propertyNames ↔
      name ∈ inheritedNames w expand scope decl ∨
        name ∈ (keysOfProperties decl.members).filterMap WrittenKey.readName? := by
  rw [interfaceSchema_eq, Schema.propertyNames, mem_names_interfaceObject,
    mem_ofMembers_property_iff, inheritedNames, List.mem_flatMap]
  refine or_congr_left (exists_congr fun parent => and_congr_right fun _ => ?_)
  cases clauseObject? w expand scope parent <;> simp

/-- The fields of an object literal have the names that its entries are read as. -/
theorem mem_names_inferredEntries {read : TypeExpr → Schema} {properties : List Property}
    {entries : Dictionary Schema} {name : String} :
    name ∈ Dictionary.names (inferredEntries read entries properties) ↔
      name ∈ Dictionary.names entries ∨
        name ∈ (properties.map WrittenKey.entry).filterMap WrittenKey.readName? := by
  induction properties generalizing entries with
  | nil => exact (or_iff_left List.not_mem_nil).symm
  | cons property rest ih =>
      have hentry : name ∈ Dictionary.names (inferredEntry read entries property) ↔
          name ∈ Dictionary.names entries ∨ (WrittenKey.entry property).readName? = some name := by
        cases property with
        | keyValue key value =>
            rw [inferredEntry, WrittenKey.readName?, Property.readName?]
            cases key.name? with
            | none => simp
            | some found => rw [Dictionary.mem_names_set, or_comm, Option.some.injEq, eq_comm]
        | shorthand found =>
            rw [inferredEntry, WrittenKey.readName?, Property.readName?, Dictionary.mem_names_set,
              or_comm, Option.some.injEq, eq_comm]
        | _ => simp [inferredEntry, WrittenKey.readName?, Property.readName?]
      rw [inferredEntries, ih, hentry, or_assoc, List.map_cons, List.filterMap_cons]
      refine or_congr_right ?_
      cases (WrittenKey.entry property).readName? with
      | none => simp
      | some found => simp [eq_comm]

end Types

namespace Workspace

variable {w : Workspace} {scope : Scope}

/-- The schema of an object type has the names that the keys of its properties are read as. -/
theorem mem_propertyNames_object {members : List TypeMember} {name : String} :
    name ∈ (w.schemaIn scope (.object members)).propertyNames ↔
      name ∈ (keysOfProperties members).filterMap WrittenKey.readName? := by
  rw [schemaIn, schemaOf, Schema.propertyNames, ObjectSchema.mem_propertyNames_insertAll,
    or_iff_right ObjectSchema.notMem_propertyNames_empty, mem_names_entriesOf,
    mem_ofMembers_property_iff]

/-- The members of an object type have the names that its keys are read as. -/
theorem memberNames_membersIn_object (members : List TypeMember) :
    memberNames (w.membersIn scope (.object members)) =
      (keysOfMembers members).filterMap WrittenKey.readName? := by
  rw [membersIn, membersOf, memberNames_eq, map_use_ownMembers, map_name_ofMembers]

/-- The names of a reference to an interface are the inherited ones and those that its own keys are
    read as: in the schema the keys of properties, in the shape all. -/
theorem mem_names_interfaceReference {outer : EntityName} {d : Declaration} {decl : InterfaceDecl}
    (hrefers : w.RefersTo scope outer d) (hnode : d.node = .interfaceNode decl)
    (args : List TypeExpr) (name : String) :
    let inside := w.expanderOn [d.key]
    let inner := w.innerScope [] d args scope
    (name ∈ (w.schemaIn scope (.reference outer args)).propertyNames ↔
      name ∈ inheritedNames w inside.schema inner decl ∨
        name ∈ (keysOfProperties decl.members).filterMap WrittenKey.readName?) ∧
    (name ∈ memberNames (w.membersIn scope (.reference outer args)) ↔
      name ∈ inheritedMemberNames w inside inner decl ∨
        name ∈ (keysOfMembers decl.members).filterMap WrittenKey.readName?) := by
  intro inside inner
  obtain ⟨hschema, hmembers⟩ := reading_of_reference hrefers List.not_mem_nil args
  obtain ⟨hobject, hshape⟩ := declaration_of_interface (w := w) (e := inside) hnode
    (schemasOf w w.expander.schema scope args)
  constructor
  · rw [show w.schemaIn scope (.reference outer args) = interfaceSchema w inside.schema inner decl
      from hschema.trans hobject]
    exact mem_propertyNames_interfaceSchema
  · rw [show w.membersIn scope (.reference outer args) = interfaceMembers w inside inner decl
      from hmembers.trans hshape]
    rw [mem_memberNames_interfaceMembers, map_name_ofMembers, inheritedMemberNames,
      List.mem_flatMap]

end Workspace

/-! ## Invented names -/

/-- **Names**: a key is misread exactly if it is read as a name that it does not give, and a number
    exactly if its plain text is not the one that it names a member by.  Every name in the schema of
    a type or of literal data, at every depth, and every name of a member is one that a key of the
    text or of a declared type is read as, or occurs in what a type parameter stands for.  Whatever
    other names are given, no name of a type literal, of an interface over what it inherits or of an
    object literal is invented exactly if none of the misread names of its own keys is. -/
theorem Workspace.no_name_invented_iff (w : Workspace) (scope : Scope) :
    (∀ k : WrittenKey, ∀ name,
      k.misread? = some name ↔ k.readName? = some name ∧ k.givenName? ≠ some name) ∧
    (∀ start x, (Key.number start x).misread? = none ↔ Decimal.NamesPlainly x) ∧
    (∀ type, ∀ name ∈ (w.schemaIn scope type).allNames,
      w.ReadsName scope type.writtenKeys name) ∧
    (∀ type, ∀ name ∈ memberNames (w.membersIn scope type),
      w.ReadsName scope type.writtenKeys name) ∧
    (∀ (e : Expr) schema, inferred? (w.schemaIn scope) e = some schema →
      ∀ name ∈ schema.allNames, w.ReadsName scope e.writtenKeys name) ∧
    (∀ members others,
      (InventsNone (w.schemaIn scope (.object members)).propertyNames (keysOfMembers members)
          others ↔
        InventsNone (misreadNames (keysOfProperties members)) (keysOfMembers members) others) ∧
      (InventsNone (memberNames (w.membersIn scope (.object members))) (keysOfMembers members)
          others ↔
        InventsNone (misreadNames (keysOfMembers members)) (keysOfMembers members) others)) ∧
    (∀ name d decl, w.RefersTo scope name d → d.node = .interfaceNode decl → ∀ args others,
      let inside := w.expanderOn [d.key]
      let inner := w.innerScope [] d args scope
      (InventsNone (w.schemaIn scope (.reference name args)).propertyNames
          (keysOfMembers decl.members) (inheritedNames w inside.schema inner decl ++ others) ↔
        InventsNone (misreadNames (keysOfProperties decl.members)) (keysOfMembers decl.members)
          (inheritedNames w inside.schema inner decl ++ others)) ∧
      (InventsNone (memberNames (w.membersIn scope (.reference name args)))
          (keysOfMembers decl.members) (inheritedMemberNames w inside inner decl ++ others) ↔
        InventsNone (misreadNames (keysOfMembers decl.members)) (keysOfMembers decl.members)
          (inheritedMemberNames w inside inner decl ++ others))) ∧
    ∀ (read : TypeExpr → Schema) properties, ∃ schema,
      inferred? read (.object properties) = some schema ∧ ∀ others,
        (InventsNone schema.propertyNames (properties.map .entry) others ↔
          InventsNone (misreadNames (properties.map .entry)) (properties.map .entry) others) := by
  have hnone (name : String) (names : List String) : name ∈ names ↔ name ∈ [] ∨ name ∈ names :=
    (or_iff_right List.not_mem_nil).symm
  refine ⟨WrittenKey.misread?_eq_some_iff, Key.misread?_number_eq_none_iff, fun type => ?_,
    fun type name hname => ?_, fun e schema => inferred?_namedFrom, fun members others => ⟨?_, ?_⟩,
    fun name d decl hrefers hnode args others => ?_,
    fun read properties => ⟨_, rfl, fun others => ?_⟩⟩
  · exact schemaIn_namedFrom allowedKeys_readsName
  · obtain ⟨m, hm, rfl⟩ := List.mem_map.mp hname
    exact readsName_of_mem_membersIn hm
  · refine Source.inventsNone_iff [] (fun name => ?_) (List.nil_subset _)
      (keysOfProperties_subset members)
    rw [← hnone]
    exact mem_propertyNames_object
  · refine Source.inventsNone_iff [] (fun name => ?_) (List.nil_subset _) (List.Subset.refl _)
    rw [← hnone, memberNames_membersIn_object]
  · have hnames := mem_names_interfaceReference hrefers hnode args
    exact ⟨Source.inventsNone_iff _ (fun name => (hnames name).1) (List.subset_append_left _ _)
        (keysOfProperties_subset _),
      Source.inventsNone_iff _ (fun name => (hnames name).2) (List.subset_append_left _ _)
        (List.Subset.refl _)⟩
  · refine Source.inventsNone_iff [] (fun name => ?_) (List.nil_subset _) (List.Subset.refl _)
    exact mem_names_inferredEntries

/-! ## A bracketed key -/

namespace Workspace

/-- The interface `Entry`, with a computed key beside a plain one. -/
def entryInterface : InterfaceDecl :=
  { start := ⟨0, 1⟩
    name := "Entry"
    params := []
    parents := []
    members :=
      [ .property ⟨18, 1⟩ (.ident "KEY" true) false (some (.keyword .string)),
        .property ⟨33, 1⟩ (.ident "id" false) false (some (.keyword .number)) ]
    inner := [] }

/-- A module that declares it. -/
def entryModule : ParsedFile :=
  { path := ⟨[.root, .name "entry.ts"]⟩
    module := ⟨[.interfaceDecl entryInterface], []⟩
    discoverable := true }

/-- The file of that module. -/
def entryFile : SourceFile :=
  Program.placed ⟨[.root]⟩ entryModule 0

/-- The workspace of that file alone. -/
def entryWorkspace : Workspace :=
  .ofProgram (.ofParsed ⟨[.root]⟩ [entryModule]) {}

/-- The declaration of `Entry`. -/
def entryDeclaration : Declaration :=
  ⟨"Entry", entryFile, .interfaceNode entryInterface, [⟨0, 1⟩], ⟨0, 1⟩⟩

/-- The type of entries. -/
def entryType : TypeExpr :=
  .reference (.ident "Entry") []

/-- The key `[KEY]` invents a name, in the schema of the interface and in its shape. -/
theorem bracketed_name_invented :
    entryWorkspace.RefersTo (.ofFile entryFile) (.ident "Entry") entryDeclaration ∧
      entryDeclaration.node = .interfaceNode entryInterface ∧
      ¬InventsNone (entryWorkspace.schemaIn (.ofFile entryFile) entryType).propertyNames
          (keysOfMembers entryInterface.members) [] ∧
      ¬InventsNone (memberNames (entryWorkspace.membersIn (.ofFile entryFile) entryType))
          (keysOfMembers entryInterface.members) [] := by
  have hrefers : entryWorkspace.RefersTo (.ofFile entryFile) (.ident "Entry") entryDeclaration :=
    .plain rfl rfl (type?_placed _ _ _ rfl)
  obtain ⟨-, -, -, -, -, -, hinterface, -⟩ :=
    no_name_invented_iff entryWorkspace (.ofFile entryFile)
  obtain ⟨hschema, hshape⟩ := hinterface _ entryDeclaration entryInterface hrefers rfl [] []
  exact ⟨hrefers, rfl, mt hschema.mp (by decide), mt hshape.mp (by decide)⟩

end Workspace

end ElementCatalog
