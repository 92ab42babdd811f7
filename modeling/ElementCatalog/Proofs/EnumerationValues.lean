import ElementCatalog.Proofs.RegistrationOutcomes
import ElementCatalog.Proofs.UnionAcceptance
import ElementCatalog.Types.Enumeration
import Mathlib.Data.Fintype.EquivFin

/-!
# Values of enumerations — numbered from the member before

A member without an initializer is one more than the member before it, and the first one is zero.
A reader knows the values of literals only; what a computed initializer comes to depends on an
evaluation that it does not make.  Toward: exactly when the values that are read are the values of
the members, whatever the computed initializers come to, and exactly when the schema of an
enumeration accepts the values of all its members.  The count goes wrong where a member follows one
without a known number, because the reader then counts on from the last number that it knows.  The
route:

* the literals among the initializers are a relation (`InitialLiteral`), equal to what is read;
* a list of members is read member by member, each from the count before it
  (`memberValuesFrom_append`, `gives_iff`);
* what the count is after a member says which members are counted wrong (`countAfter_append`), and
  the values follow by induction on how a member has its value (`HasValue`).
-/

namespace ElementCatalog

open Source (Expr EnumMember StringLiteral)

namespace Source.Expr

/-! ## Numbers -/

/-- An expression is a literal with a number, with minus signs before it. -/
inductive NumberLiteral : Expr → Float → Prop where
  | number {e : Expr} {value : Float} (h : e.unwrapped = .number value) : NumberLiteral e value
  | minus {e operand : Expr} {value : Float} (h : e.unwrapped = .unary .minus operand)
    (hoperand : NumberLiteral operand value) : NumberLiteral e (-value)

/-- Type notes and parentheses leave a number as it is. -/
theorem NumberLiteral.of_unwrapped_eq {e inner : Expr} {value : Float}
    (h : inner.NumberLiteral value) (heq : e.unwrapped = inner.unwrapped) :
    e.NumberLiteral value := by
  cases h with
  | number hnumber => exact .number (heq.trans hnumber)
  | minus hminus hoperand => exact .minus (heq.trans hminus) hoperand

/-- The number of an expression is the number inside type notes and parentheses. -/
theorem number?_unwrapped (e : Expr) : e.unwrapped.number? = e.number? := by
  fun_induction Expr.unwrapped e with
  | case6 => rfl
  | _ => rename_i ih; rw [ih, Expr.number?]

/-- The number that is read of an expression is that of the literal that it is. -/
theorem number?_eq_some_iff {e : Expr} {value : Float} :
    e.number? = some value ↔ e.NumberLiteral value := by
  constructor
  · fun_induction Expr.number? e generalizing value with
    | case6 number =>
        intro h
        cases h
        exact .number rfl
    | case7 operand ih =>
        intro h
        obtain ⟨x, hx, rfl⟩ := Option.map_eq_some_iff.mp h
        exact .minus rfl (ih hx)
    | case8 =>
        intro h
        cases h
    | _ =>
        rename_i ih
        intro h
        exact (ih h).of_unwrapped_eq rfl
  · intro h
    induction h with
    | number hnumber => rw [← number?_unwrapped, hnumber, Expr.number?]
    | minus hminus _ ih => rw [← number?_unwrapped, hminus, Expr.number?, ih, Option.map_some]

/-- An expression with a text has no number. -/
theorem TextLiteral.number?_eq_none {e : Expr} {text : String} (h : e.TextLiteral text) :
    e.number? = none := by
  cases h with
  | string heq _ => rw [← number?_unwrapped, heq, Expr.number?] <;> nofun
  | template heq _ => rw [← number?_unwrapped, heq, Expr.number?] <;> nofun

end Source.Expr

namespace Types

/-! ## Initializers that are literals -/

/-- An initializer is a literal with a value.  A string that holds half a surrogate pair stands for
    the text that it is shown as, unless something is written around it. -/
inductive InitialLiteral : Expr → Literal → Prop where
  | text {init : Expr} {text : String} (h : init.TextLiteral text) :
    InitialLiteral init (.string text)
  | number {init : Expr} {value : Float} (h : init.NumberLiteral value) :
    InitialLiteral init (.number value)
  | shown {value : StringLiteral} (h : value.wellFormed = false) :
    InitialLiteral (.string value) (.string value.text)

/-- What is read of an initializer is the value of the literal that it is. -/
theorem initialLiteral?_eq_some_iff {init : Expr} {value : Literal} :
    initialLiteral? init = some value ↔ InitialLiteral init value := by
  constructor
  · intro h
    unfold initialLiteral? at h
    split at h
    · next text htext =>
        cases h
        exact .text (Expr.string?_eq_some_iff.mp htext)
    · next htext =>
        split at h
        · next number hnumber =>
            cases h
            exact .number (Expr.number?_eq_some_iff.mp hnumber)
        · split at h
          · next literal _ =>
              cases h
              refine .shown (Bool.eq_false_iff.mpr fun hwell => ?_)
              rw [Expr.string?_eq_some_iff.mpr (.string rfl hwell)] at htext
              cases htext
          · cases h
  · intro h
    unfold initialLiteral?
    cases h with
    | text h => rw [Expr.string?_eq_some_iff.mpr h]
    | @number _ x h =>
        have hnumber : init.number? = some x := Expr.number?_eq_some_iff.mpr h
        have htext : init.string? = none := by
          cases htext : init.string? with
          | none => rfl
          | some text =>
              rw [(Expr.string?_eq_some_iff.mp htext).number?_eq_none] at hnumber
              cases hnumber
        rw [htext, hnumber]
    | @shown literal h =>
        have htext : (Expr.string literal).string? = none := by
          simp [Expr.string?, Expr.unwrapped, StringLiteral.value?, h]
        have hnumber : (Expr.string literal).number? = none := by
          simp [Expr.number?]
        rw [htext, hnumber]

/-! ## Members one by one -/

/-- The value that a member is read to, where the count stands at a number. -/
def readValue? (count : Float) (member : EnumMember) : Option Literal :=
  match member.init with
  | none => some (.number count)
  | some init => initialLiteral? init

/-- The count after a member. -/
def countAfter (count : Float) (member : EnumMember) : Float :=
  (readValue? count member).elim count (nextNumber count)

/-- The first member is read, and the others from the count after it. -/
theorem memberValuesFrom_cons (count : Float) (member : EnumMember) (rest : List EnumMember) :
    memberValuesFrom count (member :: rest) =
      ((readValue? count member).map (member.name, ·)).toList ++
        memberValuesFrom (countAfter count member) rest := by
  rw [memberValuesFrom, countAfter, readValue?]
  cases member.init with
  | none => rfl
  | some init =>
      dsimp only
      cases initialLiteral? init with
      | none => rfl
      | some value => rfl

/-- Further members are read from the count after those before them. -/
theorem memberValuesFrom_append (count : Float) (before after : List EnumMember) :
    memberValuesFrom count (before ++ after) =
      memberValuesFrom count before ++
        memberValuesFrom (before.foldl countAfter count) after := by
  induction before generalizing count with
  | nil => rfl
  | cons member rest ih =>
      rw [List.cons_append, memberValuesFrom_cons, ih, memberValuesFrom_cons, List.append_assoc,
        List.foldl_cons]

/-- A member that stands after others is given a value: the values that are read end with it. -/
def Gives (before : List EnumMember) (member : EnumMember) (value : Literal) : Prop :=
  memberValues (before ++ [member]) = memberValues before ++ [(member.name, value)]

/-- A member is given the value that it is read to at the count after those before it. -/
theorem gives_iff {before : List EnumMember} {member : EnumMember} {value : Literal} :
    Gives before member value ↔ readValue? (before.foldl countAfter 0.0) member = some value := by
  rw [Gives, memberValues, memberValuesFrom_append, memberValuesFrom_cons, memberValues,
    List.append_cancel_left_eq, memberValuesFrom, List.append_nil]
  cases readValue? (before.foldl countAfter 0.0) member with
  | none => simp
  | some other => simp

/-- What a member is given stays among the values, whatever follows. -/
theorem Gives.mem_memberValues {members before : List EnumMember} {member : EnumMember}
    {value : Literal} (h : Gives before member value) (hplace : before ++ [member] <+: members) :
    (member.name, value) ∈ memberValues members := by
  obtain ⟨after, rfl⟩ := hplace
  rw [memberValues, memberValuesFrom_append]
  refine List.mem_append_left _ ?_
  rw [show memberValuesFrom 0.0 (before ++ [member]) = _ from h]
  exact List.mem_append_right _ List.mem_cons_self

/-- A member without an initializer is always given a number. -/
theorem gives_count {before : List EnumMember} {member : EnumMember} (hinit : member.init = none) :
    Gives before member (.number (before.foldl countAfter 0.0)) := by
  rw [gives_iff, readValue?, hinit]

/-- A member with an initializer is given the value of the literal that the initializer is. -/
theorem gives_iff_initialLiteral {before : List EnumMember} {member : EnumMember} {init : Expr}
    {value : Literal} (hinit : member.init = some init) :
    Gives before member value ↔ InitialLiteral init value := by
  rw [gives_iff, readValue?, hinit]
  exact initialLiteral?_eq_some_iff

/-- After a member that is given a number the count is one more. -/
theorem Gives.count_eq {before : List EnumMember} {member : EnumMember} {x : Float}
    (h : Gives before member (.number x)) :
    (before ++ [member]).foldl countAfter 0.0 = x + 1.0 := by
  rw [List.foldl_append, List.foldl_cons, List.foldl_nil, countAfter, gives_iff.mp h]
  rfl

/-! ## What members come to -/

/-- An evaluation of initializers, which may refer to the members before them: what it gives for
    literals are their values. -/
structure Evaluation where
  value? (before : List EnumMember) (init : Expr) : Option Literal
  literal (before : List EnumMember) {init : Expr} {value : Literal} :
    InitialLiteral init value → value? before init = some value

/-- A member that stands after others has a value: that of its initializer, zero if there is none
    and the member is the first one, and else one more than the member just before it. -/
inductive HasValue (E : Evaluation) : List EnumMember → EnumMember → Literal → Prop where
  | initial {before : List EnumMember} {member : EnumMember} {init : Expr} {value : Literal}
    (hinit : member.init = some init) (hvalue : E.value? before init = some value) :
    HasValue E before member value
  | first {member : EnumMember} (hinit : member.init = none) :
    HasValue E [] member (.number 0.0)
  | next {before : List EnumMember} {prev member : EnumMember} {x : Float}
    (hinit : member.init = none) (hprev : HasValue E before prev (.number x)) :
    HasValue E (before ++ [prev]) member (.number (x + 1.0))

/-- The evaluation that gives literals a value, and everything else the same or none. -/
def Evaluation.literals (computed : Option Literal) : Evaluation where
  value? _ init := (initialLiteral? init).or computed
  literal before init value h := by
    rw [initialLiteral?_eq_some_iff.mpr h, Option.some_or]

/-- Without a value for the others, the evaluation is the reader's. -/
theorem Evaluation.value?_literals_none (before : List EnumMember) (init : Expr) :
    (literals none).value? before init = initialLiteral? init :=
  Option.or_none

/-- A member without an initializer stands just after one whose initializer is no number. -/
def Miscounted (members : List EnumMember) : Prop :=
  ∃ before prev member, before ++ [prev] ++ [member] <+: members ∧ member.init = none ∧
    ∃ init, prev.init = some init ∧ ∀ x, ¬InitialLiteral init (.number x)

variable {members : List EnumMember}

/-- A shorter place is a place. -/
theorem place_of_append {before : List EnumMember} {prev member : EnumMember}
    (h : before ++ [prev] ++ [member] <+: members) : before ++ [prev] <+: members :=
  (List.prefix_append _ _).trans h

/-- Unless a member follows one without a known number, every value that is given is the value of
    its member. -/
theorem Gives.hasValue (E : Evaluation) (hcounted : ¬Miscounted members) {member : EnumMember}
    {value : Literal} : ∀ {before : List EnumMember}, before ++ [member] <+: members →
      Gives before member value → HasValue E before member value := by
  intro before
  induction before using List.reverseRecOn generalizing member value with
  | nil =>
      intro _ hgives
      cases hinit : member.init with
      | some init =>
          exact .initial hinit (E.literal _ ((gives_iff_initialLiteral hinit).mp hgives))
      | none =>
          have hvalue := gives_iff.mp hgives
          rw [readValue?, hinit] at hvalue
          cases hvalue
          exact .first hinit
  | append_singleton before prev ih =>
      intro hplace hgives
      cases hinit : member.init with
      | some init =>
          exact .initial hinit (E.literal _ ((gives_iff_initialLiteral hinit).mp hgives))
      | none =>
          -- The member before it is given a number: it is not one that miscounts.
          obtain ⟨x, hx⟩ : ∃ x, Gives before prev (.number x) := by
            cases hprev : prev.init with
            | none => exact ⟨_, gives_count hprev⟩
            | some init =>
                by_contra hnone
                refine hcounted ⟨before, prev, member, hplace, hinit, init, hprev, fun x hx => ?_⟩
                exact hnone ⟨x, (gives_iff_initialLiteral hprev).mpr hx⟩
          have hvalue := gives_iff.mp hgives
          rw [readValue?, hinit, hx.count_eq] at hvalue
          cases hvalue
          exact .next hinit (ih (place_of_append hplace) hx)

/-- The values of members are given if all their initializers are literals. -/
theorem HasValue.gives {E : Evaluation} {before : List EnumMember} {member : EnumMember}
    {value : Literal} (h : HasValue E before member value)
    (hliterals : ∀ m ∈ before ++ [member], ∀ init, m.init = some init →
      ∃ value, InitialLiteral init value) : Gives before member value := by
  induction h with
  | @initial before member init value hinit hvalue =>
      obtain ⟨other, hother⟩ := hliterals member (by simp) init hinit
      rw [E.literal before hother] at hvalue
      cases hvalue
      exact (gives_iff_initialLiteral hinit).mpr hother
  | first hinit => exact gives_count hinit
  | @next before prev member x hinit _ ih =>
      have hprev : Gives before prev (.number x) :=
        ih fun m hm => hliterals m (List.mem_append_left _ hm)
      have hgives : Gives (before ++ [prev]) member _ := gives_count hinit
      rwa [hprev.count_eq] at hgives

/-- Where a member without an initializer has a value, the member before it has a number. -/
theorem HasValue.prev_of_init_eq_none {E : Evaluation} {before : List EnumMember}
    {prev member : EnumMember} {value : Literal} (h : HasValue E (before ++ [prev]) member value)
    (hinit : member.init = none) : ∃ x, HasValue E before prev (.number x) := by
  generalize hall : before ++ [prev] = all at h
  cases h with
  | initial hinit' _ =>
      rw [hinit] at hinit'
      cases hinit'
  | first _ => exact absurd hall (List.append_ne_nil_of_right_ne_nil _ (List.cons_ne_nil _ _))
  | @next before' prev' _ x _ hprev =>
      obtain ⟨rfl, hlast⟩ := List.append_inj' hall rfl
      cases hlast
      exact ⟨x, hprev⟩

/-- A member that is counted on from one without a known number has no value if only literals have
    one. -/
theorem Miscounted.exists_gives (h : Miscounted members) :
    ∃ before member value, before ++ [member] <+: members ∧ Gives before member value ∧
      ¬HasValue (Evaluation.literals none) before member value := by
  obtain ⟨before, prev, member, hplace, hinit, init, hprev, hnumber⟩ := h
  refine ⟨before ++ [prev], member, _, hplace, gives_count hinit, fun hvalue => ?_⟩
  obtain ⟨x, hx⟩ := hvalue.prev_of_init_eq_none hinit
  cases hx with
  | initial hinit' hvalue' =>
      rw [hprev] at hinit'
      cases hinit'
      rw [Evaluation.value?_literals_none] at hvalue'
      exact hnumber x (initialLiteral?_eq_some_iff.mp hvalue')
  | _ hinit' =>
      rw [hprev] at hinit'
      cases hinit'

/-! ## The schema of an enumeration -/

/-- The schema of a literal accepts what is that literal, and nothing else. -/
theorem accepts_literal_iff {value : Literal} {v : Json} :
    (Schema.literal value).accepts v = true ↔ value.holds v = true := by
  refine ⟨fun h => ?_, Schema.accepts_literal⟩
  rw [Schema.literal, Schema.accepts, Bool.and_eq_true, List.any_cons, List.any_nil,
    Bool.or_false] at h
  exact h.2

/-- Null is no literal. -/
theorem ne_null_of_holds {value : Literal} {v : Json} (h : value.holds v = true) : v ≠ .null := by
  rintro rfl
  cases h

/-- Once a value is known, the schema of an enumeration accepts the known values, and no other
    literal. -/
theorem enumerationSchema_accepts_iff {v : Json} (hvalues : memberValues members ≠ [])
    (hv : v ≠ .null) :
    (enumerationSchema members).accepts v = true ↔
      ∃ entry ∈ memberValues members, entry.2.holds v = true := by
  rw [enumerationSchema]
  split
  · contradiction
  · rw [Schema.union_accepts_iff_of_ne_null hv, someAccepts_iff]
    constructor
    · rintro ⟨schema, hschema, haccepts⟩
      obtain ⟨entry, hentry, rfl⟩ := List.mem_map.mp hschema
      exact ⟨entry, hentry, accepts_literal_iff.mp haccepts⟩
    · rintro ⟨entry, hentry, hholds⟩
      exact ⟨_, List.mem_map_of_mem hentry, accepts_literal_iff.mpr hholds⟩

/-- The schema of an enumeration accepts the values that its members are given. -/
theorem Gives.accepts {before : List EnumMember} {member : EnumMember} {value : Literal} {v : Json}
    (h : Gives before member value) (hplace : before ++ [member] <+: members)
    (hv : value.holds v = true) : (enumerationSchema members).accepts v = true := by
  have hentry := h.mem_memberValues hplace
  exact (enumerationSchema_accepts_iff (List.ne_nil_of_mem hentry) (ne_null_of_holds hv)).mpr
    ⟨_, hentry, hv⟩

/-- The text of a literal that has one. -/
def literalText? : Literal → Option String
  | .string text => some text
  | _ => none

/-- Some text is not among the known values. -/
theorem exists_text_not_known (values : List (String × Literal)) :
    ∃ text : String, ∀ entry ∈ values, entry.2.holds (.string text) = false := by
  let texts := values.filterMap fun entry => literalText? entry.2
  obtain ⟨text, htext⟩ := Infinite.exists_notMem_finset texts.toFinset
  refine ⟨text, fun entry hentry => Bool.eq_false_iff.mpr fun hholds => htext ?_⟩
  refine List.mem_toFinset.mpr (List.mem_filterMap.mpr ⟨entry, hentry, ?_⟩)
  obtain ⟨name, value⟩ := entry
  cases value with
  | string other => rw [show text = other from beq_iff_eq.mp hholds, literalText?]
  | _ => cases hholds

/-- Once a value is known, a member with a computed initializer may come to a value that the schema
    of the enumeration rejects. -/
theorem exists_rejected {member : EnumMember} {init : Expr} (hmember : member ∈ members)
    (hinit : member.init = some init) (hcomputed : ∀ value, ¬InitialLiteral init value)
    (hvalues : memberValues members ≠ []) :
    ∃ E before value v, before ++ [member] <+: members ∧ HasValue E before member value ∧
      value.holds v = true ∧ (enumerationSchema members).accepts v = false := by
  obtain ⟨before, after, rfl⟩ := List.append_of_mem hmember
  obtain ⟨text, htext⟩ := exists_text_not_known (memberValues (before ++ member :: after))
  have hvalue : (Evaluation.literals (some (.string text))).value? before init =
      some (.string text) := by
    have hnone : initialLiteral? init = none := by
      refine Option.eq_none_iff_forall_ne_some.mpr fun value hvalue => ?_
      exact hcomputed value (initialLiteral?_eq_some_iff.mp hvalue)
    show (initialLiteral? init).or _ = _
    rw [hnone, Option.none_or]
  refine ⟨_, before, _, .string text, ⟨after, by simp⟩, .initial hinit hvalue, beq_self_eq_true _,
    Bool.eq_false_iff.mpr fun haccepts => ?_⟩
  obtain ⟨entry, hentry, hholds⟩ :=
    (enumerationSchema_accepts_iff hvalues (by nofun)).mp haccepts
  rw [htext entry hentry] at hholds
  cases hholds

/-- **Values of enumerations**: a member with an initializer is given a value exactly if that is a
    literal, and a member without one always is, also where the value before it is not known.  So
    the values that are given are the values of their members, whatever other initializers come to,
    exactly if no member without an initializer follows one whose initializer is no number.  And the
    schema accepts the values of all members, whatever other initializers come to, exactly if all
    initializers are literals or no value is known at all. -/
theorem enumeration_values_known_iff (members : List EnumMember) :
    (∀ before member, before ++ [member] <+: members →
      (∀ init, member.init = some init → ∀ value,
        Gives before member value ↔ InitialLiteral init value) ∧
      (member.init = none → ∃ x, Gives before member (.number x))) ∧
    ((∀ E before member value, before ++ [member] <+: members → Gives before member value →
        HasValue E before member value) ↔ ¬Miscounted members) ∧
    ((∀ E before member value v, before ++ [member] <+: members → HasValue E before member value →
        value.holds v = true → (enumerationSchema members).accepts v = true) ↔
      (∀ member ∈ members, ∀ init, member.init = some init → ∃ value, InitialLiteral init value) ∨
        memberValues members = []) := by
  refine ⟨fun before member _ => ⟨fun init hinit value => gives_iff_initialLiteral hinit,
    fun hinit => ⟨_, gives_count hinit⟩⟩, ⟨fun h hcounted => ?_, fun hcounted E before member value
    hplace hgives => hgives.hasValue E hcounted hplace⟩, fun h => ?_, ?_⟩
  · obtain ⟨before, member, value, hplace, hgives, hvalue⟩ := hcounted.exists_gives
    exact hvalue (h _ before member value hplace hgives)
  · refine or_iff_not_imp_right.mpr fun hvalues member hmember init hinit => ?_
    by_contra hnone
    obtain ⟨E, before, value, v, hplace, hvalue, hv, hrejected⟩ :=
      exists_rejected hmember hinit (not_exists.mp hnone) hvalues
    rw [h E before member value v hplace hvalue hv] at hrejected
    cases hrejected
  · rintro (hliterals | hempty) E before member value v hplace hvalue hv
    · have hgives : Gives before member value :=
        hvalue.gives fun m hm init hinit => hliterals m (hplace.subset hm) init hinit
      exact hgives.accepts hplace hv
    · rw [enumerationSchema, hempty, Schema.accepts]

end Types

end ElementCatalog
