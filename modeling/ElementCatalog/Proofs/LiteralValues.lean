import ElementCatalog.Component.LiteralData
import ElementCatalog.Proofs.EnumerationValues
import ElementCatalog.Proofs.ObjectProperties
import ElementCatalog.Proofs.UnionAcceptance
import ElementCatalog.Proofs.WellFormedCatalogs

/-!
# Values of literals — what is inferred of data accepts it

Toward: literal data has a schema that accepts its value and requires no field, and a default that is
read of it is its value.  The route:

* a double that is read as an integer is this integer (`value?_of_smallInteger?`);
* of a list, one schema stands for all elements, since equal schemas accept the same values;
* of an object, what is inferred so far agrees with what is written so far, one entry after another
  (`Agree.keyValue`, `Agree.run`): both let the last entry of a name count;
* the rest is one induction on the data for the schema, and one for the default, which looks through
  parentheses and notes on types as evaluation does.
-/

namespace ElementCatalog

/-! ## Numbers -/

namespace Decimal

/-- The natural number that a mantissa with an exponent is. -/
theorem wholeValue?_eq {mantissa : Nat} {exponent : Int} {n : Nat}
    (h : wholeValue? mantissa exponent = some n) : (mantissa : ℚ) * 2 ^ exponent = n := by
  rw [wholeValue?] at h
  split at h
  · next hexponent =>
      obtain ⟨k, rfl⟩ := Int.eq_ofNat_of_zero_le hexponent
      rw [← Option.some.inj h, zpow_natCast, Int.toNat_natCast, Nat.pow_eq]
      push_cast
      rfl
  · next hexponent =>
      obtain ⟨k, rfl⟩ : ∃ k : Nat, exponent = -k :=
        ⟨(-exponent).toNat, by rw [Int.toNat_of_nonneg (by omega), Int.neg_neg]⟩
      dsimp only at h
      rw [Int.neg_neg, Int.toNat_natCast] at h
      split at h
      · next hdivides =>
          have hmantissa : mantissa = n * 2 ^ k := by
            rw [← Option.some.inj h]
            exact (Nat.div_mul_cancel (Nat.dvd_of_mod_eq_zero hdivides)).symm
          have hpower : (2 : ℚ) ^ k ≠ 0 := pow_ne_zero k two_ne_zero
          rw [zpow_neg, zpow_natCast, hmantissa]
          push_cast
          rw [mul_assoc, mul_inv_cancel₀ hpower, mul_one]
      · cases h

/-- The integer that is read of a double is its number. -/
theorem value?_of_smallInteger? {x : Float} {n : Int} (h : smallInteger? x = some n) :
    (Binary.ofFloat x).value? = some (n : ℚ) := by
  rw [smallInteger?] at h
  split at h
  · next negative mantissa exponent hbits =>
      split at h
      · next whole hwhole =>
          split at h
          · rw [hbits, Binary.value?, ← Option.some.inj h, mul_assoc, wholeValue?_eq hwhole]
            cases negative <;> simp
          · cases h
      · cases h
  · cases h

end Decimal

namespace Json

/-- The JSON number that is written for a double stands for it. -/
theorem standsFor_ofNumber (x : Float) : (Json.ofNumber x).StandsFor x := by
  rw [Json.ofNumber]
  split
  · next n h => exact .int (Decimal.value?_of_smallInteger? h)
  · exact .float x

/-- What stands for a double is a number. -/
theorem StandsFor.holds {v : Json} {x : Float} (h : v.StandsFor x) :
    Kind.number.holds v = true := by
  cases h <;> rfl

/-- A value is the same as itself. -/
theorem SameValue.refl (v : Json) : v.SameValue v :=
  Or.inl rfl

end Json

/-! ## Schemas of values -/

/-- A primitive has no objects in it. -/
theorem ObjectSchema.not_occursIn_primitive {shape : ObjectSchema} {kind : Kind} {dateTime : Bool} :
    ¬shape.OccursIn (.primitive kind dateTime) :=
  nofun

/-- What allows everything has no objects in it. -/
theorem ObjectSchema.not_occursIn_unconstrained {shape : ObjectSchema} :
    ¬shape.OccursIn .unconstrained :=
  nofun

namespace Source

section

variable {shows : Json → String → Prop} {read : TypeExpr → Schema}

/-- A schema accepts the values of an expression and requires no field anywhere. -/
structure Describes (shows : Json → String → Prop) (schema : Schema) (e : Expr) : Prop where
  accepts : ∀ v, Evaluates shows e v → schema.accepts v = true
  required : ∀ shape : ObjectSchema, shape.OccursIn schema → shape.required = []

/-- A primitive describes an expression whose values are of its kind. -/
theorem describes_primitive {kind : Kind} {e : Expr}
    (h : ∀ v, Evaluates shows e v → kind.holds v = true) :
    Describes shows (.primitive kind false) e :=
  ⟨h, fun _ hoccurs => absurd hoccurs ObjectSchema.not_occursIn_primitive⟩

/-! ## Lists -/

/-- Every value of a list is the value of an element. -/
theorem EvaluateAll.exists_mem {elements : List Expr} {values : List Json}
    (h : EvaluateAll shows elements values) {v : Json} (hv : v ∈ values) :
    ∃ e ∈ elements, Evaluates shows e v := by
  induction elements generalizing values with
  | nil =>
      cases h
      cases hv
  | cons e rest ih =>
      cases h with
      | cons hfirst hrest =>
          rcases List.mem_cons.mp hv with rfl | hv
          · exact ⟨e, List.mem_cons_self, hfirst⟩
          · obtain ⟨e', he', hvalue⟩ := ih hrest hv
            exact ⟨e', List.mem_cons_of_mem _ he', hvalue⟩

/-- Where the first element has a schema, it is that of the items. -/
theorem inferredItems_of_inferred? {e : Expr} {schema : Schema} (h : inferred? read e = some schema)
    (rest : List Expr) : inferredItems read (e :: rest) = schema := by
  cases e with
  | spread | hole => cases h
  | _ => rw [inferredItems, h, Option.getD_some] <;> nofun

/-- Of data that infers alike, one schema describes the list. -/
theorem describes_array {elements : List Expr}
    (h : ∀ e ∈ elements, ∃ schema, inferred? read e = some schema ∧ Describes shows schema e)
    (halike : elements.Pairwise (Expr.InferAlike read)) :
    Describes shows (.array (inferredItems read elements)) (.array elements) := by
  cases elements with
  | nil =>
      refine ⟨fun v hv => ?_, fun shape hoccurs => ?_⟩
      · cases hv with
        | array hvalues =>
            cases hvalues
            rfl
      · cases hoccurs with
        | items hoccurs => exact absurd hoccurs ObjectSchema.not_occursIn_unconstrained
  | cons first rest =>
      obtain ⟨schema, hschema, hfirst⟩ := h first List.mem_cons_self
      rw [inferredItems_of_inferred? hschema]
      -- The schema of the first element accepts the values of all.
      have hall : ∀ e ∈ first :: rest, ∀ v, Evaluates shows e v → schema.accepts v = true := by
        intro e he v hv
        rcases List.mem_cons.mp he with rfl | hrest
        · exact hfirst.accepts v hv
        · obtain ⟨s, s', hs, hs', hsame⟩ := (List.pairwise_cons.mp halike).1 e hrest
          obtain ⟨own, hown, hdescribes⟩ := h e he
          obtain rfl : s = schema := Option.some.inj (hs.symm.trans hschema)
          obtain rfl : s' = own := Option.some.inj (hs'.symm.trans hown)
          exact Schema.accepts_of_same hsame (hdescribes.accepts v hv)
      refine ⟨fun v hv => ?_, fun shape hoccurs => ?_⟩
      · cases hv with
        | array hvalues =>
            refine Schema.accepts_array.mpr fun value hvalue => ?_
            obtain ⟨e, he, hevaluates⟩ := hvalues.exists_mem hvalue
            exact hall e he value hevaluates
      · cases hoccurs with
        | items hoccurs => exact hfirst.required shape hoccurs

/-! ## Objects -/

/-- A key that names a field has this name, unless it is told apart from all names that are taken. -/
theorem Key.Names.cases {taken : List String} {key : Key} {name : String}
    (h : key.Names taken name) : key.name? = some name ∨ key.name? = none ∧ name ∉ taken := by
  cases h with
  | ident _ => exact Or.inl rfl
  | string hwell _ => exact Or.inl (if_pos hwell)
  | broken hbroken hnew => exact Or.inr ⟨if_neg (ne_true_of_eq_false hbroken), hnew⟩

/-- The name of a key that names a field is spelled out. -/
theorem Key.Names.name?_eq {taken : List String} {key : Key} {name : String}
    (h : key.Names taken name) : key.name? = key.spelled? := by
  cases h <;> rfl

/-- The first key spells out a name, or the others do. -/
theorem mem_spelledNames_cons {key : Key} {value : Expr} {rest : List Property} {n : String} :
    n ∈ spelledNames (.keyValue key value :: rest) ↔ n ∈ key.spelled? ∨ n ∈ spelledNames rest := by
  rw [spelledNames, List.filterMap_cons]
  dsimp only
  cases key.spelled? with
  | none => simp [spelledNames]
  | some name => simp [spelledNames, eq_comm]

/-- What is inferred of some entries agrees with what they write: each name is inferred once and is
    taken, and its schema accepts the value that counts. -/
structure Agree (taken : List String) (entries : Dictionary Schema)
    (written : List (String × Json)) : Prop where
  nodup : (Dictionary.names entries).Nodup
  taken : ∀ name ∈ Dictionary.names entries, name ∈ taken
  accepts : ∀ name schema, Dictionary.find? entries name = some schema →
    ∀ v, Dictionary.find? written name = some v → schema.accepts v = true

/-- Nothing agrees with nothing. -/
theorem Agree.nil (taken : List String) : Agree taken [] [] :=
  ⟨List.nodup_nil, List.forall_mem_nil _, nofun⟩

/-- One more entry keeps what is inferred in agreement with what is written. -/
theorem Agree.keyValue {taken : List String} {entries : Dictionary Schema}
    {written : List (String × Json)} (h : Agree taken entries written) {key : Key} {name : String}
    {value : Expr} {v : Json} (hkey : key.Names taken name)
    (hspelled : ∀ n ∈ key.spelled?, n ∈ taken)
    (hvalue : ((inferred? read value).getD .unconstrained).accepts v = true) :
    Agree taken (inferredEntry read entries (.keyValue key value)) ((name, v) :: written) := by
  rw [← hkey.name?_eq] at hspelled
  rw [inferredEntry]
  rcases hkey.cases with hname | ⟨hname, hnew⟩
  · rw [hname] at hspelled ⊢
    refine ⟨Dictionary.nodup_names_set h.nodup _ _, fun other hother => ?_,
      fun other schema hschema w hw => ?_⟩
    · rcases Dictionary.mem_names_set.mp hother with rfl | hother
      · exact hspelled other rfl
      · exact h.taken other hother
    · rw [Dictionary.find?_set] at hschema
      rw [Dictionary.find?] at hw
      by_cases hsame : other = name
      · rw [if_pos hsame] at hschema
        rw [if_pos hsame.symm] at hw
        rw [← Option.some.inj hschema, ← Option.some.inj hw]
        exact hvalue
      · rw [if_neg hsame] at hschema
        rw [if_neg (Ne.symm hsame)] at hw
        exact h.accepts other schema hschema w hw
  · -- The key is told apart from all names that a schema is inferred for.
    rw [hname]
    refine ⟨h.nodup, h.taken, fun other schema hschema w hw => ?_⟩
    have hother : other ∈ taken :=
      h.taken other (Dictionary.isSome_find?_iff.mp (hschema ▸ rfl))
    have hne : name ≠ other := fun heq => hnew (heq ▸ hother)
    rw [Dictionary.find?, if_neg hne] at hw
    exact h.accepts other schema hschema w hw

/-- All entries keep what is inferred in agreement with what is written. -/
theorem Agree.run {taken : List String} {properties : List Property}
    {written : List (String × Json)} (hw : WriteAll shows taken properties written)
    (hspelled : ∀ n ∈ spelledNames properties, n ∈ taken)
    (hvalues : ∀ key value, .keyValue key value ∈ properties → ∀ v, Evaluates shows value v →
      ((inferred? read value).getD .unconstrained).accepts v = true)
    {entries : Dictionary Schema} {before : List (String × Json)} (h : Agree taken entries before) :
    Agree taken (inferredEntries read entries properties) (written.reverse ++ before) := by
  induction properties generalizing written entries before with
  | nil =>
      cases hw
      exact h
  | cons property rest ih =>
      cases hw with
      | keyValue hkey hv hrest =>
          have hnext : Agree taken (inferredEntry read entries _) (_ :: before) := h.keyValue hkey
            (fun n hn => hspelled n (mem_spelledNames_cons.mpr (Or.inl hn)))
            (hvalues _ _ List.mem_cons_self _ hv)
          have hfinal := ih hrest
            (fun n hn => hspelled n (mem_spelledNames_cons.mpr (Or.inr hn)))
            (fun key value hmem => hvalues key value (List.mem_cons_of_mem _ hmem)) hnext
          rw [inferredEntries, List.reverse_cons, List.append_assoc, List.singleton_append]
          exact hfinal

/-- What is inferred of entries is inferred of one of their values. -/
theorem mem_inferredEntries {entries : List (Key × Expr)} {before : Dictionary Schema}
    {p : String × Schema}
    (h : p ∈ inferredEntries read before (entries.map fun entry => .keyValue entry.1 entry.2)) :
    p ∈ before ∨ ∃ entry ∈ entries, p.2 = (inferred? read entry.2).getD .unconstrained := by
  induction entries generalizing before with
  | nil => exact Or.inl h
  | cons entry rest ih =>
      obtain ⟨key, value⟩ := entry
      rw [List.map_cons, inferredEntries] at h
      rcases ih h with hmem | ⟨entry, hentry, hp⟩
      · rw [inferredEntry] at hmem
        cases hname : key.name? with
        | none =>
            rw [hname] at hmem
            exact Or.inl hmem
        | some name =>
            rw [hname] at hmem
            rcases Dictionary.mem_of_mem_set hmem with rfl | hmem
            · exact Or.inr ⟨(key, value), List.mem_cons_self, rfl⟩
            · exact Or.inl hmem
      · exact Or.inr ⟨entry, List.mem_cons_of_mem _ hentry, hp⟩

/-- The properties that are inferred of entries describe the object. -/
theorem describes_object {entries : List (Key × Expr)}
    (h : ∀ entry ∈ entries, ∃ schema, inferred? read entry.2 = some schema ∧
      Describes shows schema entry.2) :
    let properties := entries.map fun entry => Property.keyValue entry.1 entry.2
    Describes shows (.object ⟨inferredEntries read [] properties, []⟩) (.object properties) := by
  intro properties
  refine ⟨fun v hv => ?_, fun shape hoccurs => ?_⟩
  · cases hv with
    | @object _ written fields hwrites hnames hlast =>
        have hvalues : ∀ key value, .keyValue key value ∈ properties → ∀ v,
            Evaluates shows value v →
              ((inferred? read value).getD .unconstrained).accepts v = true := by
          intro key value hmem v hv
          obtain ⟨entry, hentry, heq⟩ := List.mem_map.mp hmem
          obtain ⟨schema, hschema, hdescribes⟩ := h entry hentry
          cases heq
          rw [hschema]
          exact hdescribes.accepts v hv
        have hagree : Agree _ (inferredEntries read [] properties) _ :=
          Agree.run hwrites (fun _ hn => hn) hvalues (Agree.nil _)
        rw [List.append_nil] at hagree
        refine Schema.accepts_object.mpr ⟨fields, rfl, ObjectSchema.accepts_iff.mpr
          ⟨List.forall_mem_nil _, fun p hp v hv => ?_⟩⟩
        rw [hlast] at hv
        exact hagree.accepts p.1 p.2 (Dictionary.find?_of_mem hagree.nodup hp) v hv
  · cases hoccurs with
    | self => rfl
    | property hp hoccurs =>
        rcases mem_inferredEntries hp with hnil | ⟨entry, hentry, heq⟩
        · cases hnil
        · obtain ⟨schema, hschema, hdescribes⟩ := h entry hentry
          rw [heq, hschema] at hoccurs
          exact hdescribes.required shape hoccurs

/-! ## Data -/

/-- What stands around an expression without changing its value does not change its description. -/
theorem Describes.of_evaluates {schema : Schema} {inner outer : Expr}
    (h : Describes shows schema inner)
    (hvalue : ∀ v, Evaluates shows outer v → Evaluates shows inner v) :
    Describes shows schema outer :=
  ⟨fun v hv => h.accepts v (hvalue v hv), h.required⟩

/-- Literal data has a schema that describes it. -/
theorem Expr.IsLiteralData.exists_describes (shows : Json → String → Prop) {e : Expr}
    (h : e.IsLiteralData read) :
    ∃ schema, inferred? read e = some schema ∧ Describes shows schema e := by
  induction h with
  | string literal =>
      refine ⟨.string, rfl, describes_primitive fun v hv => ?_⟩
      cases hv
      rfl
  | number _ =>
      refine ⟨.number, rfl, describes_primitive fun v hv => ?_⟩
      cases hv with
      | number hv => exact hv.holds
  | minus _ =>
      refine ⟨.number, rfl, describes_primitive fun v hv => ?_⟩
      cases hv with
      | minus hv => exact hv.holds
  | plus _ =>
      refine ⟨.number, rfl, describes_primitive fun v hv => ?_⟩
      cases hv with
      | plus hv => exact hv.holds
  | boolean value =>
      refine ⟨.boolean, rfl, describes_primitive fun v hv => ?_⟩
      cases hv
      rfl
  | null =>
      exact ⟨.unconstrained, rfl, fun _ _ => rfl,
        fun _ hoccurs => absurd hoccurs ObjectSchema.not_occursIn_unconstrained⟩
  | template _ _ _ =>
      refine ⟨.string, rfl, describes_primitive fun v hv => ?_⟩
      cases hv
      rfl
  | array _ halike ih => exact ⟨_, rfl, describes_array ih halike⟩
  | object _ _ ih => exact ⟨_, rfl, describes_object ih⟩
  | paren _ ih | nonNull _ ih | asConst _ ih | satisfies _ ih =>
      obtain ⟨schema, hschema, hdescribes⟩ := ih
      refine ⟨schema, hschema, hdescribes.of_evaluates fun v hv => ?_⟩
      cases hv
      assumption

/-! ## Defaults -/

/-- The default that is read of a string is its text. -/
theorem defaultValue?_string (literal : StringLiteral) :
    defaultValue? (.string literal) = literal.value?.map .string := by
  have htext : (Expr.string literal).string? = literal.value? := rfl
  rw [defaultValue?, htext]
  cases literal.value? <;> rfl

/-- The default that is read of a template without substitutions is its text. -/
theorem defaultValue?_template (piece : StringLiteral) :
    defaultValue? (.template [some piece] []) = piece.value?.map .string := by
  have htext : (Expr.template [some piece] []).string? = piece.value? := rfl
  rw [defaultValue?, htext]
  cases piece.value? <;> rfl

/-- A string evaluates to the texts that stand for it. -/
theorem evaluates_string_iff {literal : StringLiteral} {v : Json} :
    Evaluates shows (.string literal) v ↔ ∃ text, literal.Denotes text ∧ v = .string text := by
  constructor
  · intro hv
    cases hv with
    | string h => exact ⟨_, h, rfl⟩
  · rintro ⟨text, h, rfl⟩
    exact .string h

/-- A template without substitutions evaluates to the texts that stand for its only piece. -/
theorem evaluates_template_iff {piece : StringLiteral} {v : Json} :
    Evaluates shows (.template [some piece] []) v ↔
      ∃ text, piece.Denotes text ∧ v = .string text := by
  constructor
  · intro hv
    cases hv with
    | template hfills =>
        cases hfills with
        | last h => exact ⟨_, h, rfl⟩
  · rintro ⟨text, h, rfl⟩
    exact .template (.last h)

/-- A text is the value of what evaluates to it. -/
theorem same_of_text {e : Expr} {literal : StringLiteral} {d : Json}
    (hevaluates : ∀ v, Evaluates shows e v ↔ ∃ text, literal.Denotes text ∧ v = .string text)
    (hd : literal.value?.map Json.string = some d) :
    Evaluates shows e d ∧ ∀ v, Evaluates shows e v → v.SameValue d := by
  obtain ⟨text, htext, rfl⟩ := Option.map_eq_some_iff.mp hd
  obtain ⟨hwell, rfl⟩ := StringLiteral.value?_eq_some_iff.mp htext
  refine ⟨(hevaluates _).mpr ⟨literal.text, fun _ => rfl, rfl⟩, fun v hv => ?_⟩
  obtain ⟨text, hdenotes, rfl⟩ := (hevaluates v).mp hv
  rw [hdenotes hwell]
  exact .refl _

/-- A number is the value of what evaluates to it, however it is spelled. -/
theorem same_of_number {e : Expr} {x : Float} {d : Json}
    (hevaluates : ∀ v, Evaluates shows e v ↔ v.StandsFor x)
    (hd : (if Decimal.isFinite x then some (Json.ofNumber x) else none) = some d) :
    Evaluates shows e d ∧ ∀ v, Evaluates shows e v → v.SameValue d := by
  obtain ⟨-, hd⟩ := Option.ite_none_right_eq_some.mp hd
  have hstands : d.StandsFor x := Option.some.inj hd ▸ Json.standsFor_ofNumber x
  exact ⟨(hevaluates d).mpr hstands, fun v hv => Or.inr ⟨x, (hevaluates v).mp hv, hstands⟩⟩

/-- The default that is read of literal data is its value. -/
theorem Expr.IsLiteralData.evaluates_default (shows : Json → String → Prop) {e : Expr}
    (h : e.IsLiteralData read) {d : Json} (hd : defaultValue? e = some d) :
    Evaluates shows e d ∧ ∀ v, Evaluates shows e v → v.SameValue d := by
  induction h with
  | string literal =>
      rw [defaultValue?_string] at hd
      exact same_of_text (fun _ => evaluates_string_iff) hd
  | number _ =>
      refine same_of_number (fun v => ⟨fun hv => ?_, .number⟩) hd
      cases hv
      assumption
  | minus _ =>
      refine same_of_number (fun v => ⟨fun hv => ?_, .minus⟩) hd
      cases hv
      assumption
  | plus _ => cases hd
  | boolean value =>
      cases hd
      refine ⟨.boolean value, fun v hv => ?_⟩
      cases hv
      exact .refl _
  | null =>
      cases hd
      refine ⟨.null, fun v hv => ?_⟩
      cases hv
      exact .refl _
  | @template pieces substitutions hpieces _ _ =>
      cases substitutions with
      | cons e rest => cases hd
      | nil =>
          obtain ⟨piece, rfl⟩ := List.length_eq_one_iff.mp hpieces
          exact same_of_text (fun _ => evaluates_template_iff)
            ((defaultValue?_template piece).symm.trans hd)
  | array _ _ _ => cases hd
  | object _ _ _ => cases hd
  | paren _ ih | nonNull _ ih | asConst _ ih | satisfies _ ih =>
      obtain ⟨hvalue, hsame⟩ := ih hd
      refine ⟨by constructor; exact hvalue, fun v hv => hsame v ?_⟩
      cases hv
      assumption

/-! ## Data has values -/

/-- A key that names a field names one whatever names are taken. -/
theorem Key.Names.exists_of_taken {key : Key} {name : String} (h : key.Names [] name)
    (taken : List String) : ∃ name', key.Names taken name' := by
  cases h with
  | ident h => exact ⟨_, .ident h⟩
  | string hwell h => exact ⟨_, .string hwell h⟩
  | broken hbroken _ =>
      obtain ⟨new, hnew⟩ := Infinite.exists_notMem_finset taken.toFinset
      exact ⟨new, .broken hbroken fun hmem => hnew (List.mem_toFinset.mpr hmem)⟩

/-- Elements with values evaluate to a list of values. -/
theorem exists_evaluateAll {elements : List Expr}
    (h : ∀ e ∈ elements, ∃ v, Evaluates shows e v) :
    ∃ values, EvaluateAll shows elements values := by
  induction elements with
  | nil => exact ⟨[], .nil⟩
  | cons e rest ih =>
      obtain ⟨v, hv⟩ := h e List.mem_cons_self
      obtain ⟨values, hvalues⟩ := ih fun e he => h e (List.mem_cons_of_mem _ he)
      exact ⟨v :: values, .cons hv hvalues⟩

/-- Entries with names and values write them. -/
theorem exists_writeAll {entries : List (Key × Expr)} (taken : List String)
    (hkeys : ∀ entry ∈ entries, ∃ name, entry.1.Names [] name)
    (h : ∀ entry ∈ entries, ∃ v, Evaluates shows entry.2 v) :
    ∃ written,
      WriteAll shows taken (entries.map fun entry => .keyValue entry.1 entry.2) written := by
  induction entries with
  | nil => exact ⟨[], .nil⟩
  | cons entry rest ih =>
      obtain ⟨name, hname⟩ := hkeys entry List.mem_cons_self
      obtain ⟨name', hkey⟩ := hname.exists_of_taken taken
      obtain ⟨v, hv⟩ := h entry List.mem_cons_self
      obtain ⟨written, hrest⟩ := ih (fun entry hentry => hkeys entry (List.mem_cons_of_mem _ hentry))
        fun entry hentry => h entry (List.mem_cons_of_mem _ hentry)
      exact ⟨(name', v) :: written, .keyValue hkey hv hrest⟩

/-- The first values under all names make a dictionary. -/
theorem exists_dictionary (written : List (String × Json)) : ∃ fields : List (String × Json),
    (Dictionary.names fields).Nodup ∧
      ∀ name, Dictionary.find? fields name = Dictionary.find? written name := by
  induction written with
  | nil => exact ⟨[], List.nodup_nil, fun _ => rfl⟩
  | cons entry rest ih =>
      obtain ⟨name, v⟩ := entry
      obtain ⟨fields, hnames, hfields⟩ := ih
      refine ⟨Dictionary.set fields name v, Dictionary.nodup_names_set hnames name v,
        fun other => ?_⟩
      rw [Dictionary.find?_set, Dictionary.find?, hfields]
      by_cases hsame : other = name
      · rw [if_pos hsame, if_pos hsame.symm]
      · rw [if_neg hsame, if_neg (Ne.symm hsame)]

/-- A template is filled if its substitutions have values and every value is shown somehow. -/
theorem exists_fills (hshows : ∀ v, ∃ text, shows v text) {pieces : List StringLiteral}
    {substitutions : List Expr} (hpieces : pieces.length = substitutions.length + 1)
    (h : ∀ e ∈ substitutions, ∃ v, Evaluates shows e v) :
    ∃ text, Fills shows (pieces.map some) substitutions text := by
  induction substitutions generalizing pieces with
  | nil =>
      obtain ⟨piece, rfl⟩ := List.length_eq_one_iff.mp hpieces
      exact ⟨piece.text, .last fun _ => rfl⟩
  | cons e rest ih =>
      obtain ⟨piece, pieces, rfl⟩ := List.exists_cons_of_length_eq_add_one hpieces
      obtain ⟨v, hv⟩ := h e List.mem_cons_self
      obtain ⟨shown, hshown⟩ := hshows v
      obtain ⟨text, htext⟩ := ih (Nat.succ.inj hpieces) fun e he => h e (List.mem_cons_of_mem _ he)
      exact ⟨_, .cons (fun _ => rfl) hv hshown htext⟩

/-- Literal data evaluates to a value if every value is shown somehow in a template. -/
theorem Expr.IsLiteralData.exists_value (hshows : ∀ v, ∃ text, shows v text) {e : Expr}
    (h : e.IsLiteralData read) : ∃ v, Evaluates shows e v := by
  induction h with
  | string literal => exact ⟨.string literal.text, .string fun _ => rfl⟩
  | @number x _ => exact ⟨.float x, .number (.float x)⟩
  | @minus x _ => exact ⟨.float (-x), .minus (.float (-x))⟩
  | @plus x _ => exact ⟨.float x, .plus (.float x)⟩
  | boolean value => exact ⟨.bool value, .boolean value⟩
  | null => exact ⟨.null, .null⟩
  | template hpieces _ ih =>
      obtain ⟨text, htext⟩ := exists_fills hshows hpieces ih
      exact ⟨.string text, .template htext⟩
  | array _ _ ih =>
      obtain ⟨values, hvalues⟩ := exists_evaluateAll ih
      exact ⟨.array values, .array hvalues⟩
  | object hkeys _ ih =>
      obtain ⟨written, hwritten⟩ := exists_writeAll _ hkeys ih
      obtain ⟨fields, hnames, hfields⟩ := exists_dictionary written.reverse
      exact ⟨.object fields, .object hwritten hnames hfields⟩
  | paren _ ih | nonNull _ ih | asConst _ ih | satisfies _ ih =>
      obtain ⟨v, hv⟩ := ih
      exact ⟨v, by constructor; exact hv⟩

end

/-! ## Inference -/

/-- **Inference of data**: literal data has a schema, which accepts the values that the data
    evaluates to and requires no field anywhere; and a default that is read of the data is its value,
    up to the spelling of numbers, so the schema accepts it.  There is a value, provided that values
    can be shown in templates. -/
theorem literal_data_described (shows : Json → String → Prop) (read : TypeExpr → Schema) {e : Expr}
    (h : e.IsLiteralData read) :
    ∃ schema, inferred? read e = some schema ∧
      (∀ v, Evaluates shows e v → schema.accepts v = true) ∧
      (∀ shape : ObjectSchema, shape.OccursIn schema → shape.required = []) ∧
      (∀ d, defaultValue? e = some d →
        Evaluates shows e d ∧ (∀ v, Evaluates shows e v → v.SameValue d) ∧
          schema.accepts d = true) ∧
      ((∀ v, ∃ text, shows v text) → ∃ v, Evaluates shows e v) := by
  obtain ⟨schema, hschema, haccepts, hrequired⟩ := h.exists_describes shows
  refine ⟨schema, hschema, haccepts, hrequired, fun d hd => ?_, fun hshows => h.exists_value hshows⟩
  obtain ⟨hvalue, hsame⟩ := h.evaluates_default shows hd
  exact ⟨hvalue, hsame, haccepts d hvalue⟩

/-- An object that writes one of its names twice, with a list in it. -/
def rewrittenData : Expr :=
  .asConst (.object [
    .keyValue (.ident default "state") (.string ⟨"open", true⟩),
    .keyValue (.string default ⟨"marks", true⟩) (.array [.null, .paren .null]),
    .keyValue (.ident default "state") (.boolean true)])

/-- Its schema accepts the object with the second value under this name. -/
theorem rewritten_data_accepted : ∃ schema,
    inferred? (fun _ => .unconstrained) rewrittenData = some schema ∧
      schema.accepts (.object [("state", .bool true), ("marks", .array [.null, .null])]) = true := by
  have hmarks : (Expr.array [.null, .paren .null]).IsLiteralData fun _ => .unconstrained := by
    refine .array (List.forall_mem_cons.mpr ⟨.null, List.forall_mem_singleton.mpr (.paren .null)⟩) ?_
    exact List.pairwise_pair.mpr ⟨.unconstrained, .unconstrained, rfl, rfl, rfl⟩
  have hdata : rewrittenData.IsLiteralData fun _ => .unconstrained := by
    refine .asConst (@Expr.IsLiteralData.object _ [(.ident default "state", .string ⟨"open", true⟩),
      (.string default ⟨"marks", true⟩, .array [.null, .paren .null]),
      (.ident default "state", .boolean true)] ?_ ?_)
    · simp only [List.forall_mem_cons]
      exact ⟨⟨_, .ident (by decide)⟩, ⟨_, .string rfl (by decide)⟩, ⟨_, .ident (by decide)⟩,
        List.forall_mem_nil _⟩
    · simp only [List.forall_mem_cons]
      exact ⟨.string _, hmarks, .boolean true, List.forall_mem_nil _⟩
  have hvalue : Evaluates (fun v text => v = .string text) rewrittenData
      (.object [("state", .bool true), ("marks", .array [.null, .null])]) := by
    refine .asConst (.object (.keyValue (.ident (by decide)) (.string fun _ => rfl)
      (.keyValue (.string rfl (by decide)) (.array (.cons .null (.cons (.paren .null) .nil)))
        (.keyValue (.ident (by decide)) (.boolean true) .nil))) (by decide) fun name => ?_)
    -- What is written first comes last, and its name is found before.
    show (if "state" = name then _ else if "marks" = name then _ else none) =
      if "state" = name then _ else if "marks" = name then _ else if "state" = name then _ else none
    by_cases hstate : "state" = name
    · rw [if_pos hstate, if_pos hstate]
    · rw [if_neg hstate, if_neg hstate, if_neg hstate]
  obtain ⟨schema, hschema, haccepts, -⟩ :=
    literal_data_described (fun v text => v = .string text) (fun _ => .unconstrained) hdata
  exact ⟨schema, hschema, haccepts _ hvalue⟩

end Source

end ElementCatalog
