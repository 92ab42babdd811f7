import ElementCatalog.Proofs.ObjectProperties
import ElementCatalog.Proofs.UnionAcceptance

/-!
# Unions of normal schemas are in normal form

Toward: the schema of a union is in normal form if those of its members are.  The route:

* a schema in normal form is equal to another one only if that one is equal to it, so a union that
  compares each member with those before it leaves members that differ both ways;
* literals and kinds are merged without repetitions;
* what is not merged is neither all enumerations of one kind nor all bare.
-/

namespace ElementCatalog

/-! ## Lists of results -/

section Results

variable {α β : Type} {f : α → Option β} {items : List α} {results : List β}

/-- If every item has a result, each result is that of an item. -/
theorem exists_item_of_mapM (h : items.mapM f = some results) {b : β} (hb : b ∈ results) :
    ∃ a ∈ items, f a = some b := by
  induction items generalizing results with
  | nil =>
      cases h
      cases hb
  | cons first rest ih =>
      rw [List.mapM_cons] at h
      obtain ⟨result, hresult, hrest⟩ := Option.bind_eq_some_iff.mp h
      obtain ⟨others, hothers, heq⟩ := Option.bind_eq_some_iff.mp hrest
      cases heq
      rcases List.mem_cons.mp hb with hfirst | hb
      · exact ⟨first, List.mem_cons_self, hfirst ▸ hresult⟩
      · obtain ⟨a, ha, hfa⟩ := ih hothers hb
        exact ⟨a, List.mem_cons_of_mem _ ha, hfa⟩

/-- If every item has a result, the result of each item is among them. -/
theorem exists_result_of_mapM (h : items.mapM f = some results) {a : α} (ha : a ∈ items) :
    ∃ b ∈ results, f a = some b := by
  induction items generalizing results with
  | nil => cases ha
  | cons first rest ih =>
      rw [List.mapM_cons] at h
      obtain ⟨result, hresult, hrest⟩ := Option.bind_eq_some_iff.mp h
      obtain ⟨others, hothers, heq⟩ := Option.bind_eq_some_iff.mp hrest
      cases heq
      rcases List.mem_cons.mp ha with hfirst | ha
      · exact ⟨result, List.mem_cons_self, hfirst ▸ hresult⟩
      · obtain ⟨b, hb, hfb⟩ := ih hothers ha
        exact ⟨b, List.mem_cons_of_mem _ hb, hfb⟩

/-- If not every item has a result, one has none. -/
theorem exists_none_of_mapM (h : items.mapM f = none) : ∃ a ∈ items, f a = none := by
  induction items with
  | nil => cases h
  | cons first rest ih =>
      cases hfirst : f first with
      | none => exact ⟨first, List.mem_cons_self, hfirst⟩
      | some result =>
          have hrest : rest.mapM f = none := by
            cases hothers : rest.mapM f with
            | none => rfl
            | some others =>
                rw [List.mapM_cons, hfirst, hothers] at h
                cases h
          obtain ⟨a, ha, hfa⟩ := ih hrest
          exact ⟨a, List.mem_cons_of_mem _ ha, hfa⟩

/-- If every step leaves something, so do some steps. -/
theorem foldl_ne_nil {step : List β → α → List β} (hstep : ∀ found a, step found a ≠ [])
    (h : items ≠ []) (start : List β) : items.foldl step start ≠ [] := by
  rcases List.eq_nil_or_concat items with hnil | ⟨before, last, heq⟩
  · exact absurd hnil h
  · rw [heq, List.concat_eq_append, List.foldl_append]
    exact hstep _ last

end Results

/-! ## Equality goes both ways -/

/-- Equality of lists of literals goes both ways. -/
theorem sameLiterals_symm : ∀ {as bs : List Literal}, sameLiterals as bs = true →
    sameLiterals bs as = true
  | [], [], _ => rfl
  | [], _ :: _, h => nomatch h
  | _ :: _, [], h => nomatch h
  | a :: as, b :: bs, h => by
      obtain ⟨hfirst, hrest⟩ := Bool.and_eq_true_iff.mp h
      exact Bool.and_eq_true_iff.mpr ⟨Literal.same_symm hfirst, sameLiterals_symm hrest⟩

/-- What it means that properties are found in another object with equal schemas. -/
theorem samePropertiesIn_iff {others properties : List (String × Schema)} :
    samePropertiesIn others properties = true ↔
      ∀ p ∈ properties, ∃ schema, Dictionary.find? others p.1 = some schema ∧
        p.2.same schema = true := by
  induction properties with
  | nil => simp [samePropertiesIn]
  | cons p rest ih =>
      obtain ⟨name, schema⟩ := p
      rw [samePropertiesIn, Bool.and_eq_true, ih, List.forall_mem_cons]
      refine and_congr_left fun _ => ?_
      cases Dictionary.find? others name with
      | none => simp
      | some found => simp

/-- If an object in which each name stands once is equal to another one, each name stands once
    there, too, and the objects have the same names. -/
theorem ObjectSchema.perm_names_of_same {a b : ObjectSchema}
    (hnames : (Dictionary.names a.properties).Nodup) (h : a.same b = true) :
    (Dictionary.names a.properties).Perm (Dictionary.names b.properties) := by
  obtain ⟨properties, required⟩ := a
  rw [ObjectSchema.same, Bool.and_eq_true, Bool.and_eq_true] at h
  obtain ⟨⟨hlength, hfound⟩, -⟩ := h
  have hsubset : Dictionary.names properties ⊆ Dictionary.names b.properties := by
    intro name hname
    obtain ⟨p, hp, heq⟩ := List.mem_map.mp hname
    obtain ⟨schema, hschema, -⟩ := samePropertiesIn_iff.mp hfound p hp
    rw [← heq]
    exact List.mem_map.mpr ⟨_, Dictionary.mem_of_find? hschema, rfl⟩
  have hlengths :
      (Dictionary.names b.properties).length ≤ (Dictionary.names properties).length := by
    rw [Dictionary.names, Dictionary.names, List.length_map, List.length_map,
      beq_iff_eq.mp hlength]
  -- As many names as in the other object, all of them among its names, are all of its names.
  exact (List.subperm_of_subset hnames hsubset).perm_of_length_le hlengths

/-- Equality with an object in which each name stands once goes both ways if that of its properties
    does. -/
theorem ObjectSchema.same_symm {a b : ObjectSchema}
    (hnames : (Dictionary.names a.properties).Nodup)
    (hproperties : ∀ p ∈ a.properties, ∀ schema, p.2.same schema = true → schema.same p.2 = true)
    (h : a.same b = true) : b.same a = true := by
  have hperm := perm_names_of_same hnames h
  obtain ⟨properties, required⟩ := a
  obtain ⟨properties', required'⟩ := b
  rw [ObjectSchema.same, Bool.and_eq_true, Bool.and_eq_true] at h ⊢
  obtain ⟨⟨hlength, hfound⟩, hrequired⟩ := h
  refine ⟨⟨beq_iff_eq.mpr (beq_iff_eq.mp hlength).symm, samePropertiesIn_iff.mpr ?_⟩,
    beq_iff_eq.mpr (beq_iff_eq.mp hrequired).symm⟩
  intro q hq
  have hname : q.1 ∈ Dictionary.names properties :=
    hperm.mem_iff.mpr (List.mem_map.mpr ⟨q, hq, rfl⟩)
  obtain ⟨schema, hschema⟩ := Option.isSome_iff_exists.mp (Dictionary.isSome_find?_iff.mpr hname)
  obtain ⟨schema', hschema', hsame⟩ :=
    samePropertiesIn_iff.mp hfound _ (Dictionary.mem_of_find? hschema)
  have hq' : Dictionary.find? properties' q.1 = some q.2 :=
    Dictionary.find?_of_mem (hperm.nodup_iff.mp hnames) hq
  cases hq'.symm.trans hschema'
  exact ⟨schema, hschema, hproperties _ (Dictionary.mem_of_find? hschema) _ hsame⟩

/-- Equality of lists of schemas goes both ways if that of the first ones does. -/
theorem sameMembers_symm : ∀ {as bs : List Schema},
    (∀ a ∈ as, ∀ b : Schema, a.same b = true → b.same a = true) → sameMembers as bs = true →
      sameMembers bs as = true
  | [], [], _, _ => by rw [sameMembers]
  | [], _ :: _, _, h => by simp [sameMembers] at h
  | _ :: _, [], _, h => by simp [sameMembers] at h
  | a :: as, b :: bs, hsymm, h => by
      rw [sameMembers, Bool.and_eq_true] at h ⊢
      exact ⟨hsymm a List.mem_cons_self b h.1,
        sameMembers_symm (fun a' ha' => hsymm a' (List.mem_cons_of_mem _ ha')) h.2⟩

namespace Schema

/-- Equality with a reduced schema goes both ways. -/
theorem Reduced.same_symm {a : Schema} (h : a.Reduced) : ∀ {b : Schema}, a.same b = true →
    b.same a = true := by
  induction h with
  | primitive kind dateTime =>
      intro b hsame
      cases b with
      | primitive =>
          rw [same, Bool.and_eq_true, beq_iff_eq, beq_iff_eq] at hsame ⊢
          exact ⟨hsame.1.symm, hsame.2.symm⟩
      | _ => simp only [same, Bool.false_eq_true] at hsame
  | multiType =>
      intro b hsame
      cases b with
      | multiType =>
          rw [same, beq_iff_eq] at hsame ⊢
          exact hsame.symm
      | _ => simp only [same, Bool.false_eq_true] at hsame
  | enumeration =>
      intro b hsame
      cases b with
      | enumeration =>
          rw [same, Bool.and_eq_true, beq_iff_eq] at hsame ⊢
          exact ⟨hsame.1.symm, sameLiterals_symm hsame.2⟩
      | _ => simp only [same, Bool.false_eq_true] at hsame
  | object hnames _ ih =>
      intro b hsame
      cases b with
      | object =>
          rw [same] at hsame ⊢
          exact ObjectSchema.same_symm hnames (fun p hp _ => ih p hp) hsame
      | _ => simp only [same, Bool.false_eq_true] at hsame
  | array _ ih =>
      intro b hsame
      cases b with
      | array =>
          rw [same] at hsame ⊢
          exact ih hsame
      | _ => simp only [same, Bool.false_eq_true] at hsame
  | alternatives _ _ _ _ _ _ ih =>
      intro b hsame
      cases b with
      | alternatives =>
          rw [same] at hsame ⊢
          exact sameMembers_symm (fun a ha _ => ih a ha) hsame
      | _ => simp only [same, Bool.false_eq_true] at hsame
  | unconstrained =>
      intro b hsame
      cases b with
      | unconstrained => rfl
      | _ => simp only [same, Bool.false_eq_true] at hsame

/-! ## Unions -/

/-- What a union needs of the form that its members have: equality with a member goes both ways, and
    nested alternatives are flat and of this form themselves. -/
structure Opens (form : Schema → Prop) : Prop where
  symm : ∀ {a b : Schema}, form a → a.same b = true → b.same a = true
  flat : ∀ {nested : List Schema}, form (.alternatives nested) →
    ∀ member ∈ nested, member.isAlternative = true
  members : ∀ {nested : List Schema}, form (.alternatives nested) → ∀ member ∈ nested, form member

/-- Reduced schemas can be members of unions. -/
theorem opens_reduced : Opens Reduced where
  symm := fun h => h.same_symm
  flat := by
    rintro nested (_ | _ | _ | _ | _ | ⟨_, _, hflat, _, _, _⟩)
    exact hflat
  members := by
    rintro nested (_ | _ | _ | _ | _ | ⟨_, _, _, _, _, hmembers⟩)
    exact hmembers

/-- Schemas in normal form can be members of unions. -/
theorem opens_normal : Opens Normal where
  symm := fun h => h.reduced.same_symm
  flat := fun h => opens_reduced.flat h.reduced
  members := by
    rintro nested (_ | _ | _ | _ | _ | ⟨_, _, _, _, _, hmembers⟩)
    exact hmembers

/-- Schemas of one form of which no two are equal and each may stand among alternatives. -/
structure Separate (form : Schema → Prop) (found : List Schema) : Prop where
  distinct : found.Pairwise Differs
  flat : ∀ member ∈ found, member.isAlternative = true
  all : ∀ member ∈ found, form member

section Form

variable {form : Schema → Prop}

/-- Nothing at all is separate. -/
theorem Separate.nil : Separate form [] :=
  ⟨.nil, fun _ h => absurd h List.not_mem_nil, fun _ h => absurd h List.not_mem_nil⟩

/-- Adding a schema keeps them separate. -/
theorem Separate.addNew (hopens : Opens form) {found : List Schema} (h : Separate form found)
    {schema : Schema} (hflat : schema.isAlternative = true) (hform : form schema) :
    Separate form (addNew found schema) := by
  rw [Schema.addNew]
  split
  · exact h
  · rename_i hnew
    have hdiffers : ∀ member ∈ found, Differs member schema := by
      intro member hmember
      have hbefore : member.same schema = false := by
        rw [Bool.eq_false_iff]
        exact fun hsame => hnew (List.any_eq_true.mpr ⟨member, hmember, hsame⟩)
      refine ⟨hbefore, Bool.eq_false_iff.mpr fun hsame => ?_⟩
      rw [hopens.symm hform hsame] at hbefore
      cases hbefore
    refine ⟨List.pairwise_append.mpr ⟨h.distinct, List.pairwise_singleton _ _, ?_⟩, ?_, ?_⟩
    · intro member hmember last hlast
      rw [List.mem_singleton.mp hlast]
      exact hdiffers member hmember
    · exact List.forall_mem_append.mpr ⟨h.flat, List.forall_mem_singleton.mpr hflat⟩
    · exact List.forall_mem_append.mpr ⟨h.all, List.forall_mem_singleton.mpr hform⟩

/-- Adding schemas one after another keeps them separate. -/
theorem Separate.foldl_addNew (hopens : Opens form) {added : List Schema}
    (hflat : ∀ s ∈ added, s.isAlternative = true) (hform : ∀ s ∈ added, form s) :
    ∀ {found : List Schema}, Separate form found →
      Separate form (added.foldl Schema.addNew found) := by
  induction added with
  | nil => exact fun h => h
  | cons schema rest ih =>
      rw [List.forall_mem_cons] at hflat hform
      exact fun h => ih hflat.2 hform.2 (h.addNew hopens hflat.1 hform.1)

/-- The distinct members of a union are separate. -/
theorem Separate.distinctMembers? (hopens : Opens form) {members : List Schema}
    (hform : ∀ member ∈ members, form member) : ∀ {found distinct : List Schema},
      Separate form found → Schema.distinctMembers? found members = some distinct →
        Separate form distinct := by
  induction members with
  | nil =>
      intro found distinct h heq
      cases heq
      exact h
  | cons member rest ih =>
      intro found distinct h heq
      rw [List.forall_mem_cons] at hform
      obtain ⟨hmember, hrest⟩ := hform
      cases member with
      | alternatives nested =>
          exact ih hrest (h.foldl_addNew hopens (hopens.flat hmember) (hopens.members hmember)) heq
      | unconstrained => cases heq
      | _ => exact ih hrest (h.addNew hopens rfl hmember) heq

end Form

/-! ### Merged enumerations -/

/-- Literals of which no two are equal. -/
def LiteralsDiffer (values : List Literal) : Prop :=
  values.Pairwise fun a b => a.same b = false ∧ b.same a = false

/-- Adding a literal leaves no two equal. -/
theorem LiteralsDiffer.addLiteral {values : List Literal} (h : LiteralsDiffer values)
    (value : Literal) : LiteralsDiffer (addLiteral values value) := by
  rw [Schema.addLiteral]
  split
  · exact h
  · rename_i hnew
    refine List.pairwise_append.mpr ⟨h, List.pairwise_singleton _ _, fun old hold last hlast => ?_⟩
    rw [List.mem_singleton.mp hlast]
    have hbefore : old.same value = false :=
      Bool.eq_false_iff.mpr fun hsame => hnew (List.any_eq_true.mpr ⟨old, hold, hsame⟩)
    refine ⟨hbefore, Bool.eq_false_iff.mpr fun hsame => ?_⟩
    rw [Literal.same_symm hsame] at hbefore
    cases hbefore

/-- Adding literals one after another leaves no two equal. -/
theorem LiteralsDiffer.foldl_addLiteral (added : List Literal) : ∀ {values : List Literal},
    LiteralsDiffer values → LiteralsDiffer (added.foldl Schema.addLiteral values) := by
  induction added with
  | nil => exact fun h => h
  | cons value rest ih => exact fun h => ih (h.addLiteral value)

/-- After literals are added, each of them was there or is an added one. -/
theorem mem_or_mem_of_mem_foldl_addLiteral {added : List Literal} {value : Literal} :
    ∀ {values : List Literal}, value ∈ added.foldl addLiteral values →
      value ∈ values ∨ value ∈ added := by
  induction added with
  | nil => exact fun h => Or.inl h
  | cons first rest ih =>
      intro values h
      rcases ih h with hvalues | hrest
      · rw [addLiteral] at hvalues
        split at hvalues
        · exact Or.inl hvalues
        · rcases List.mem_append.mp hvalues with hvalues | hfirst
          · exact Or.inl hvalues
          · exact Or.inr (List.mem_cons.mpr (Or.inl (List.mem_singleton.mp hfirst)))
      · exact Or.inr (List.mem_cons_of_mem _ hrest)

/-- After a literal is added there are some. -/
theorem addLiteral_ne_nil (values : List Literal) (value : Literal) :
    addLiteral values value ≠ [] := by
  rw [addLiteral]
  split
  · rename_i hany
    obtain ⟨old, hold, -⟩ := List.any_eq_true.mp hany
    exact List.ne_nil_of_mem hold
  · exact List.append_ne_nil_of_right_ne_nil _ (List.cons_ne_nil _ _)

/-- An enumeration that is merged from enumerations in normal form is in normal form. -/
theorem mergeEnumerations?_normal {members : List Schema} {merged : Schema}
    (hnormal : ∀ member ∈ members, member.Normal)
    (h : mergeEnumerations? members = some merged) : merged.Normal := by
  cases members with
  | nil => cases h
  | cons first rest =>
      cases first with
      | enumeration kind values =>
          obtain ⟨lists, hlists, heq⟩ := Option.map_eq_some_iff.mp h
          rw [← heq]
          -- The literals of each member have its kind, which is that of the first.
          have hmembers : ∀ list ∈ lists, list ≠ [] ∧ ∀ value ∈ list, value.kind = kind := by
            intro list hlist
            obtain ⟨member, hmember, hliterals⟩ := exists_item_of_mapM hlists hlist
            have hmember := hnormal member hmember
            cases member with
            | enumeration kind' values' =>
                rw [literalsOf?] at hliterals
                split at hliterals
                · rename_i hkind
                  cases hliterals
                  cases hmember with
                  | enumeration hone _ hkinds => exact ⟨hone, hkind ▸ hkinds⟩
                · cases hliterals
            | _ => cases hliterals
          obtain ⟨list, hlist, -⟩ := exists_result_of_mapM hlists List.mem_cons_self
          obtain ⟨value, hvalue⟩ := List.exists_mem_of_ne_nil list (hmembers list hlist).1
          refine .enumeration (foldl_ne_nil addLiteral_ne_nil ?_ [])
            (LiteralsDiffer.foldl_addLiteral _ .nil) fun value hvalue => ?_
          · exact List.ne_nil_of_mem (List.mem_flatten.mpr ⟨list, hlist, hvalue⟩)
          · rcases mem_or_mem_of_mem_foldl_addLiteral hvalue with hnone | hvalue
            · cases hnone
            · obtain ⟨list, hlist, hvalue⟩ := List.mem_flatten.mp hvalue
              exact (hmembers list hlist).2 value hvalue
      | _ => cases h

/-- If enumerations are not merged, not all of them are of one kind. -/
theorem exists_not_enumeration {members : List Schema} (hne : members ≠ [])
    (h : mergeEnumerations? members = none) (kind : Kind) :
    ∃ member ∈ members, member.isEnumerationOf kind = false := by
  by_contra hall
  have hkinds : ∀ member ∈ members, ∃ values, member = .enumeration kind values := by
    intro member hmember
    have hkind : member.isEnumerationOf kind = true := by
      by_contra hother
      exact hall ⟨member, hmember, Bool.eq_false_iff.mpr hother⟩
    cases member with
    | enumeration kind' values => exact ⟨values, by rw [beq_iff_eq.mp hkind]⟩
    | _ => cases hkind
  cases members with
  | nil => exact hne rfl
  | cons first rest =>
      obtain ⟨values, heq⟩ := hkinds first List.mem_cons_self
      subst heq
      obtain ⟨member, hmember, hnone⟩ := exists_none_of_mapM (Option.map_eq_none_iff.mp h)
      obtain ⟨values', heq⟩ := hkinds member hmember
      rw [heq, literalsOf?, if_pos rfl] at hnone
      cases hnone

/-! ### Merged kinds -/

/-- Adding kinds repeats none. -/
theorem nodup_foldl_addKind (added : List Kind) : ∀ {kinds : List Kind}, kinds.Nodup →
    (added.foldl addKind kinds).Nodup := by
  induction added with
  | nil => exact fun h => h
  | cons kind rest ih =>
      intro kinds h
      refine ih ?_
      rw [addKind]
      split
      · exact h
      · rename_i hnew
        refine List.nodup_append.mpr ⟨h, List.nodup_singleton kind, ?_⟩
        intro a ha b hb hab
        rw [List.mem_singleton.mp hb] at hab
        exact hnew (List.contains_iff_mem.mpr (hab ▸ ha))

/-- After a kind is added there are some. -/
theorem addKind_ne_nil (kinds : List Kind) (kind : Kind) : addKind kinds kind ≠ [] := by
  rw [addKind]
  split
  · rename_i hmem
    exact List.ne_nil_of_mem (List.contains_iff_mem.mp hmem)
  · exact List.append_ne_nil_of_right_ne_nil _ (List.cons_ne_nil _ _)

/-- A bare reduced schema has kinds. -/
theorem Reduced.bareKinds?_ne_nil {member : Schema} (h : member.Reduced) {kinds : List Kind}
    (hkinds : bareKinds? member = some kinds) : kinds ≠ [] := by
  cases h with
  | primitive kind dateTime =>
      cases dateTime with
      | true => cases hkinds
      | false =>
          cases hkinds
          exact List.cons_ne_nil _ _
  | multiType htwo =>
      cases hkinds
      exact List.ne_nil_of_length_pos (by omega)
  | _ => cases hkinds

/-- What is merged from bare reduced schemas is a primitive or a multi-type of distinct kinds. -/
theorem mergeKinds?_cases {members : List Schema} {merged : Schema} (hne : members ≠ [])
    (hreduced : ∀ member ∈ members, member.Reduced) (h : mergeKinds? members = some merged) :
    (∃ kind, merged = .primitive kind false) ∨
      ∃ kinds, merged = .multiType kinds ∧ 2 ≤ kinds.length ∧ kinds.Nodup := by
  obtain ⟨lists, hlists, heq⟩ := Option.map_eq_some_iff.mp h
  have hkinds : lists.flatten ≠ [] := by
    obtain ⟨member, hmember⟩ := List.exists_mem_of_ne_nil members hne
    obtain ⟨kinds, hmem, hbare⟩ := exists_result_of_mapM hlists hmember
    obtain ⟨kind, hkind⟩ :=
      List.exists_mem_of_ne_nil kinds ((hreduced member hmember).bareKinds?_ne_nil hbare)
    exact List.ne_nil_of_mem (List.mem_flatten.mpr ⟨kinds, hmem, hkind⟩)
  have hsome := foldl_ne_nil addKind_ne_nil hkinds []
  have hnodup := nodup_foldl_addKind lists.flatten List.nodup_nil
  rw [← heq]
  generalize lists.flatten.foldl addKind [] = kinds at hsome hnodup
  cases kinds with
  | nil => exact absurd rfl hsome
  | cons first rest =>
      cases rest with
      | nil => exact Or.inl ⟨first, rfl⟩
      | cons second others => exact Or.inr ⟨_, rfl, by simp, hnodup⟩

/-- What is merged from bare schemas in normal form is in normal form. -/
theorem mergeKinds?_normal {members : List Schema} {merged : Schema} (hne : members ≠ [])
    (hnormal : ∀ member ∈ members, member.Normal) (h : mergeKinds? members = some merged) :
    merged.Normal := by
  have hreduced : ∀ member ∈ members, member.Reduced := fun m hm => (hnormal m hm).reduced
  rcases mergeKinds?_cases hne hreduced h with ⟨kind, rfl⟩ | ⟨kinds, rfl, htwo, hdistinct⟩
  · exact .primitive kind false
  · exact .multiType htwo hdistinct

/-- If bare schemas are not merged, not all of them are bare. -/
theorem exists_not_bare {members : List Schema} (h : mergeKinds? members = none) :
    ∃ member ∈ members, member.isBare = false := by
  obtain ⟨member, hmember, hnone⟩ := exists_none_of_mapM (Option.map_eq_none_iff.mp h)
  refine ⟨member, hmember, ?_⟩
  cases member with
  | primitive kind dateTime =>
      cases dateTime with
      | true => rfl
      | false => cases hnone
  | multiType => cases hnone
  | _ => rfl

/-- The union of schemas of one form has this form if merging keeps it, and if alternatives have it
    that are flat, differ, and are neither all enumerations of one kind nor all bare. -/
theorem union_keeps {form : Schema → Prop} {members : List Schema} (hopens : Opens form)
    (hform : ∀ member ∈ members, form member) (hall : form .unconstrained) (hnull : form .null)
    (henumerations : ∀ {distinct : List Schema} {merged : Schema}, (∀ s ∈ distinct, form s) →
      mergeEnumerations? distinct = some merged → form merged)
    (hkinds : ∀ {distinct : List Schema} {merged : Schema}, distinct ≠ [] →
      (∀ s ∈ distinct, form s) → mergeKinds? distinct = some merged → form merged)
    (halternatives : ∀ {distinct : List Schema}, 2 ≤ distinct.length → Separate form distinct →
      (∀ kind, ∃ member ∈ distinct, member.isEnumerationOf kind = false) →
      (∃ member ∈ distinct, member.isBare = false) → form (.alternatives distinct)) :
    form (union members) := by
  rw [union]
  cases hdistinct : distinctMembers? [] members with
  | none => exact hall
  | some distinct =>
      have hseparate := Separate.distinctMembers? hopens hform .nil hdistinct
      cases distinct with
      | nil => exact hnull
      | cons first rest =>
          cases rest with
          | nil => exact hseparate.all first List.mem_cons_self
          | cons second others =>
              have hne : first :: second :: others ≠ [] := List.cons_ne_nil _ _
              dsimp only
              cases henum : mergeEnumerations? (first :: second :: others) with
              | some merged => exact henumerations hseparate.all henum
              | none =>
                  cases hbare : mergeKinds? (first :: second :: others) with
                  | some merged => exact hkinds hne hseparate.all hbare
                  | none =>
                      exact halternatives (by simp) hseparate (exists_not_enumeration hne henum)
                        (exists_not_bare hbare)

/-- **Unions**: the union of schemas in normal form is in normal form. -/
theorem union_normal {members : List Schema} (hnormal : ∀ member ∈ members, member.Normal) :
    (union members).Normal :=
  union_keeps opens_normal hnormal .unconstrained (.primitive .null false) mergeEnumerations?_normal
    mergeKinds?_normal fun htwo hseparate hkinds hbare =>
      .alternatives htwo hseparate.distinct hseparate.flat hkinds hbare hseparate.all

end Schema

end ElementCatalog
