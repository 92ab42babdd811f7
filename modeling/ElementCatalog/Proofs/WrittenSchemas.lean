import ElementCatalog.Proofs.LiteralValues
import ElementCatalog.Schema.Json

/-!
# Written schemas — JSON tells schemas apart

Toward: two schemas whose numbers are finite have the same JSON exactly if they are equal, however
deep they are and whether or not they are well-formed.  The route:

* doubles that are one number are equal (`beq_of_value?_eq`), so a literal is told by its JSON
  (`Literal.same_toJson`);
* the fields of a schema and what stands under `type` tell its constructor;
* the rest is one induction on the first schema, with properties looked up by their names.
-/

namespace ElementCatalog

/-! ## Doubles -/

namespace Decimal

namespace Binary

variable {negative negative' : Bool} {mantissa mantissa' : Nat} {exponent exponent' : Int}

/-- The bits of a finite double: the sign, the field of the exponent and the fraction. -/
theorem exists_bits {x : Float} (h : ofFloat x = .finite negative mantissa exponent) :
    ∃ field fraction : Nat, x.toBits.toNat =
        negative.toNat * 9223372036854775808 + field * 4503599627370496 + fraction ∧
      fraction < 4503599627370496 ∧
      ((field = 0 ∧ mantissa = fraction ∧ exponent = -1074) ∨
        (0 < field ∧ mantissa = 4503599627370496 + fraction ∧ exponent = field - 1075)) := by
  have hlt := x.toBits.toNat_lt
  rw [ofFloat] at h
  generalize x.toBits.toNat = bits at h hlt
  have hsign : (bits / Nat.pow 2 63 == 1).toNat = bits / 9223372036854775808 := by
    have hcases : bits / 9223372036854775808 = 0 ∨ bits / 9223372036854775808 = 1 := by omega
    rcases hcases with heq | heq <;> simp [heq]
  refine ⟨bits / 4503599627370496 % 2048, bits % 4503599627370496, ?_⟩
  split at h
  · split at h <;> cases h
  · split at h
    · next hzero =>
        cases h
        have hfield : bits / 4503599627370496 % 2048 = 0 := eq_of_beq hzero
        rw [hsign]
        exact ⟨by omega, by omega, .inl ⟨hfield, rfl, rfl⟩⟩
    · next hzero =>
        cases h
        have hfield : bits / 4503599627370496 % 2048 ≠ 0 := fun heq => hzero (beq_iff_eq.mpr heq)
        rw [hsign]
        exact ⟨by omega, by omega, .inr ⟨by omega, rfl, rfl⟩⟩

/-- A finite double is told by what is read off its bits. -/
theorem ofFloat_finite_inj {x y : Float} (hx : ofFloat x = .finite negative mantissa exponent)
    (hy : ofFloat y = .finite negative mantissa exponent) : x = y := by
  obtain ⟨field, fraction, hbits, hfraction, hkind⟩ := exists_bits hx
  obtain ⟨field', fraction', hbits', hfraction', hkind'⟩ := exists_bits hy
  refine Float.toBits_inj.mp (UInt64.toNat_inj.mp ?_)
  rw [hbits, hbits']
  omega

/-- Of two doubles with one absolute value neither has the greater exponent: only the least exponent
    goes with a mantissa that lacks digits. -/
theorem exponent_le_of_value_eq {x y : Float} (hx : ofFloat x = .finite negative mantissa exponent)
    (hy : ofFloat y = .finite negative' mantissa' exponent')
    (hvalue : (mantissa : ℚ) * 2 ^ exponent = mantissa' * 2 ^ exponent') : exponent' ≤ exponent := by
  obtain ⟨field, fraction, -, hfraction, hkind⟩ := exists_bits hx
  obtain ⟨field', fraction', -, hfraction', hkind'⟩ := exists_bits hy
  by_contra hless
  obtain ⟨k, rfl⟩ : ∃ k : Nat, exponent' = exponent + (k + 1 : Nat) :=
    ⟨(exponent' - exponent - 1).toNat, by omega⟩
  have hwhole : mantissa = mantissa' * 2 ^ (k + 1) := by
    rw [zpow_add₀ two_ne_zero, zpow_natCast, mul_comm ((2 : ℚ) ^ exponent), ← mul_assoc] at hvalue
    exact_mod_cast mul_right_cancel₀ (zpow_ne_zero exponent two_ne_zero) hvalue
  have hfull : 4503599627370496 ≤ mantissa' := by omega
  have htwo : 2 ≤ 2 ^ (k + 1) := by
    rw [pow_succ]
    have := Nat.one_le_two_pow (n := k)
    omega
  have hlarge : 4503599627370496 * 2 ≤ mantissa := hwhole ▸ Nat.mul_le_mul hfull htwo
  omega

/-- The number of a finite double. -/
theorem value?_eq_some_iff {b : Binary} {q : ℚ} : b.value? = some q ↔
    ∃ negative mantissa exponent, b = .finite negative mantissa exponent ∧
      (if negative then -1 else 1) * (mantissa : ℚ) * 2 ^ exponent = q := by
  cases b <;> simp [value?]

/-- What is finite is not undefined. -/
theorem ne_nan_of_finite {x : Float} (h : ofFloat x = .finite negative mantissa exponent) :
    x ≠ Float.nan := by
  have hnan : ofFloat Float.nan = .nan := by decide +kernel
  rintro rfl
  rw [hnan] at h
  cases h

/-- Where there are no digits there is one of the two zeros. -/
theorem eq_zero_or_of_finite {x : Float} (h : ofFloat x = .finite negative 0 exponent) :
    x = 0 ∨ x = -0 := by
  have hzero : ofFloat 0 = .finite false 0 (-1074) := by decide +kernel
  have hminus : ofFloat (-0) = .finite true 0 (-1074) := by decide +kernel
  obtain ⟨field, fraction, -, -, hkind⟩ := exists_bits h
  obtain rfl : exponent = -1074 := by omega
  cases negative with
  | false => exact .inl (ofFloat_finite_inj h hzero)
  | true => exact .inr (ofFloat_finite_inj h hminus)

/-- Doubles that are one number are equal, where the two zeros are. -/
theorem beq_of_value?_eq {x y : Float} {q : ℚ} (hx : (ofFloat x).value? = some q)
    (hy : (ofFloat y).value? = some q) : (x == y) = true := by
  obtain ⟨negative, mantissa, exponent, hx, hxq⟩ := value?_eq_some_iff.mp hx
  obtain ⟨negative', mantissa', exponent', hy, hyq⟩ := value?_eq_some_iff.mp hy
  have habs : ∀ (sign : Bool) (m : Nat) (e : Int),
      |(if sign then -1 else 1) * (m : ℚ) * 2 ^ e| = m * 2 ^ e := by
    intro sign m e
    have hnonneg : (0 : ℚ) ≤ m * 2 ^ e := by positivity
    cases sign <;> simp [abs_of_nonneg hnonneg]
  have hvalue : (mantissa : ℚ) * 2 ^ exponent = mantissa' * 2 ^ exponent' := by
    rw [← habs negative, ← habs negative', hxq, hyq]
  obtain rfl : exponent = exponent' :=
    le_antisymm (exponent_le_of_value_eq hy hx hvalue.symm) (exponent_le_of_value_eq hx hy hvalue)
  obtain rfl : mantissa = mantissa' := by
    exact_mod_cast mul_right_cancel₀ (zpow_ne_zero exponent two_ne_zero) hvalue
  refine Float.beq_iff_ne_nan_and_eq.mpr ⟨ne_nan_of_finite hx, ne_nan_of_finite hy, ?_⟩
  by_cases hmantissa : mantissa = 0
  · subst hmantissa
    rcases eq_zero_or_of_finite hx with rfl | rfl <;>
      rcases eq_zero_or_of_finite hy with rfl | rfl <;> simp
  · have hpositive : (mantissa : ℚ) * 2 ^ exponent ≠ 0 :=
      mul_ne_zero (Nat.cast_ne_zero.mpr hmantissa) (zpow_ne_zero exponent two_ne_zero)
    have hsign : negative = negative' := by
      rw [← hyq, mul_assoc, mul_assoc] at hxq
      have := mul_right_cancel₀ hpositive hxq
      cases negative <;> cases negative' <;> first | rfl | (norm_num at this)
    subst hsign
    exact .inl (ofFloat_finite_inj hx hy)

end Binary

/-- Equal doubles are read as one integer, or none is. -/
theorem smallInteger?_eq_of_beq {x y : Float} (h : (x == y) = true) :
    smallInteger? x = smallInteger? y := by
  have hzero : smallInteger? 0 = smallInteger? (-0) := by decide +kernel
  obtain ⟨-, -, rfl | ⟨rfl, rfl⟩ | ⟨rfl, rfl⟩⟩ := Float.beq_iff_ne_nan_and_eq.mp h
  · rfl
  · exact hzero
  · exact hzero.symm

end Decimal

/-! ## Equal JSON -/

mutual

/-- Two JSON values are the same.  The order of the fields of an object does not matter, and a double
    that is no number is written as null. -/
def Json.same : Json → Json → Bool
  | .null, other =>
    match other with
    | .null => true
    | .float y => !Decimal.isFinite y
    | _ => false
  | .bool a, other =>
    match other with
    | .bool b => a == b
    | _ => false
  | .int n, other =>
    match other with
    | .int m => n == m
    | _ => false
  | .float x, other =>
    match other with
    | .null => !Decimal.isFinite x
    | .float y => x == y || (!Decimal.isFinite x && !Decimal.isFinite y)
    | _ => false
  | .string s, other =>
    match other with
    | .string t => s == t
    | _ => false
  | .array items, other =>
    match other with
    | .array items' => sameItems items items'
    | _ => false
  | .object fields, other =>
    match other with
    | .object fields' => fields.length == fields'.length && sameFieldsIn fields' fields
    | _ => false
termination_by structural v => v

/-- Two lists of JSON values are the same, place by place. -/
def sameItems : List Json → List Json → Bool
  | [], [] => true
  | v :: vs, w :: ws => Json.same v w && sameItems vs ws
  | _, _ => false
termination_by structural vs => vs

/-- Every listed field is in the other object with the same value. -/
def sameFieldsIn (others : List (String × Json)) : List (String × Json) → Bool
  | [] => true
  | (name, v) :: rest =>
    (match Dictionary.find? others name with
      | some w => Json.same v w
      | none => false) && sameFieldsIn others rest
termination_by structural fields => fields

end

/-! ## Literals -/

/-- A literal stands in an enumeration somewhere in a schema. -/
inductive Literal.OccursIn (literal : Literal) : Schema → Prop where
  | value {kind : Kind} {values : List Literal} (h : literal ∈ values) :
    OccursIn literal (.enumeration kind values)
  | property {shape : ObjectSchema} {p : String × Schema} (hp : p ∈ shape.properties)
    (h : OccursIn literal p.2) : OccursIn literal (.object shape)
  | items {items : Schema} (h : OccursIn literal items) : OccursIn literal (.array items)
  | member {members : List Schema} {m : Schema} (hm : m ∈ members) (h : OccursIn literal m) :
    OccursIn literal (.alternatives members)

/-- A literal that JSON can write: a text, a truth value or a double that is a number. -/
def Literal.Writable (literal : Literal) : Prop :=
  ∀ x, literal = .number x → Decimal.isFinite x = true

/-- A double is written as the integer that it is, or as itself. -/
theorem Json.ofNumber_cases (x : Float) :
    (∃ n, Decimal.smallInteger? x = some n ∧ Json.ofNumber x = .int n) ∨
      Decimal.smallInteger? x = none ∧ Json.ofNumber x = .float x := by
  rw [Json.ofNumber]
  cases Decimal.smallInteger? x with
  | some n => exact .inl ⟨n, rfl, rfl⟩
  | none => exact .inr ⟨rfl, rfl⟩

/-- A finite number is told by its JSON. -/
theorem Json.same_ofNumber {x y : Float} (hx : Decimal.isFinite x = true) :
    (Json.ofNumber x).same (.ofNumber y) = (x == y) := by
  -- Numbers of which only one is written as an integer are different.
  have hdifferent : Decimal.smallInteger? x ≠ Decimal.smallInteger? y → (x == y) = false :=
    fun hne => Bool.eq_false_iff.mpr fun heq => hne (Decimal.smallInteger?_eq_of_beq heq)
  rcases Json.ofNumber_cases x with ⟨n, hn, hxn⟩ | ⟨hn, hxn⟩ <;>
    rcases Json.ofNumber_cases y with ⟨m, hm, hym⟩ | ⟨hm, hym⟩ <;> rw [hxn, hym]
  · rw [Json.same, Bool.eq_iff_iff, beq_iff_eq]
    constructor
    · rintro rfl
      exact Decimal.Binary.beq_of_value?_eq (Decimal.value?_of_smallInteger? hn)
        (Decimal.value?_of_smallInteger? hm)
    · intro heq
      have hsame := Decimal.smallInteger?_eq_of_beq heq
      rw [hn, hm] at hsame
      exact Option.some.inj hsame
  · exact (hdifferent (by simp [hn, hm])).symm
  · exact (hdifferent (by simp [hn, hm])).symm
  · rw [Json.same, hx, Bool.not_true, Bool.false_and, Bool.or_false]

/-- A literal is told by its JSON. -/
theorem Literal.same_toJson {a b : Literal} (ha : a.Writable) :
    a.toJson.same b.toJson = a.same b := by
  cases a with
  | string s =>
      cases b with
      | number y =>
          rcases Json.ofNumber_cases y with ⟨n, -, hy⟩ | ⟨-, hy⟩ <;> rw [toJson, toJson, hy] <;> rfl
      | string t => rfl
      | boolean q => rfl
  | number x =>
      cases b with
      | number y => exact Json.same_ofNumber (ha x rfl)
      | string t =>
          rcases Json.ofNumber_cases x with ⟨n, -, hx⟩ | ⟨-, hx⟩ <;> rw [toJson, toJson, hx] <;> rfl
      | boolean q =>
          rcases Json.ofNumber_cases x with ⟨n, -, hx⟩ | ⟨-, hx⟩ <;> rw [toJson, toJson, hx] <;> rfl
  | boolean p =>
      cases b with
      | number y =>
          rcases Json.ofNumber_cases y with ⟨n, -, hy⟩ | ⟨-, hy⟩ <;> rw [toJson, toJson, hy] <;> rfl
      | string t => rfl
      | boolean q => rfl

/-- Literals are told by their JSON. -/
theorem sameItems_literals {as bs : List Literal} (h : ∀ a ∈ as, a.Writable) :
    sameItems (as.map Literal.toJson) (bs.map Literal.toJson) = sameLiterals as bs := by
  induction as generalizing bs with
  | nil => cases bs <;> rfl
  | cons a as ih =>
      cases bs with
      | nil => rfl
      | cons b bs =>
          rw [List.map_cons, List.map_cons, sameItems, sameLiterals,
            Literal.same_toJson (h a List.mem_cons_self),
            ih fun l hl => h l (List.mem_cons_of_mem a hl)]

/-- Texts are told by their JSON. -/
theorem sameItems_strings {as bs : List String} :
    (Json.strings as).same (.strings bs) = (as == bs) := by
  have hitems : sameItems (as.map .string) (bs.map .string) = (as == bs) := by
    induction as generalizing bs with
    | nil => cases bs <;> rfl
    | cons a as ih =>
        cases bs with
        | nil => rfl
        | cons b bs => rw [List.map_cons, List.map_cons, sameItems, Json.same, ih, List.cons_beq_cons]
  exact hitems

/-! ## Schemas -/

/-- Kinds have different names. -/
theorem Kind.name_beq (a b : Kind) : (a.name == b.name) = (a == b) := by
  cases a <;> cases b <;> rfl

/-- No kind has the name of objects or of lists. -/
theorem Kind.name_ne (kind : Kind) : kind.name ≠ "object" ∧ kind.name ≠ "array" := by
  cases kind <;> decide

/-- Kinds are told by their JSON. -/
theorem sameItems_kinds {as bs : List Kind} :
    sameItems (as.map fun kind => .string kind.name) (bs.map fun kind => .string kind.name) =
      (as == bs) := by
  induction as generalizing bs with
  | nil => cases bs <;> rfl
  | cons a as ih =>
      cases bs with
      | nil => rfl
      | cons b bs =>
          rw [List.map_cons, List.map_cons, sameItems, Json.same, ih, Kind.name_beq,
            List.cons_beq_cons]

/-- The JSON of a property is found under its name. -/
theorem Schema.find?_propertiesToJson (properties : List (String × Schema)) (name : String) :
    Dictionary.find? (propertiesToJson properties) name =
      (Dictionary.find? properties name).map toJson := by
  induction properties with
  | nil => rfl
  | cons p rest ih =>
      obtain ⟨n, schema⟩ := p
      rw [propertiesToJson, Dictionary.find?, Dictionary.find?, ih]
      split <;> rfl

/-- Every property is written. -/
theorem Schema.length_propertiesToJson (properties : List (String × Schema)) :
    (propertiesToJson properties).length = properties.length := by
  induction properties with
  | nil => rfl
  | cons p rest ih =>
      obtain ⟨n, schema⟩ := p
      rw [propertiesToJson, List.length_cons, List.length_cons, ih]

/-- What kind of schema a schema is. -/
inductive Schema.Form where
  | primitive
  | multiType
  | enumeration
  | object
  | array
  | alternatives
  | unconstrained

/-- The form of a schema. -/
def Schema.form : Schema → Form
  | .primitive .. => .primitive
  | .multiType _ => .multiType
  | .enumeration .. => .enumeration
  | .object _ => .object
  | .array _ => .array
  | .alternatives _ => .alternatives
  | .unconstrained => .unconstrained

/-- An object has no fields besides its type, its properties and its required names. -/
theorem ObjectSchema.find?_toFields_of_ne {shape : ObjectSchema} {name : String}
    (hproperties : name ≠ "properties") (hrequired : name ≠ "required") :
    Dictionary.find? shape.toFields name = none := by
  obtain ⟨_ | _, _ | _⟩ := shape <;>
    simp [toFields, Dictionary.find?, hproperties.symm, hrequired.symm]

/-- Schemas of different forms have different fields, or other values under `type`. -/
theorem Schema.toJson_of_form_ne {a b : Schema} (h : a.form ≠ b.form) :
    a.toJson.same b.toJson = false := by
  cases a with
  | primitive kind dateTime =>
      have hname := kind.name_ne
      cases dateTime <;> cases b <;>
        simp_all [form, toJson, Json.same, sameFieldsIn, Dictionary.find?]
  | multiType kinds =>
      cases b <;> simp_all [form, toJson, Json.same, sameFieldsIn, Dictionary.find?]
  | enumeration kind values =>
      have hname := kind.name_ne
      cases b with
      | primitive _ dateTime =>
          cases dateTime <;> simp [toJson, Json.same, sameFieldsIn, Dictionary.find?]
      | _ => simp_all [form, toJson, Json.same, sameFieldsIn, Dictionary.find?]
  | object shape =>
      cases b with
      | primitive kind _ =>
          have hname := kind.name_ne.1.symm
          simp [toJson, Json.same, sameFieldsIn, Dictionary.find?, hname]
      | enumeration kind _ =>
          have hname := kind.name_ne.1.symm
          simp [toJson, Json.same, sameFieldsIn, Dictionary.find?, hname]
      | _ => simp_all [form, toJson, Json.same, sameFieldsIn, Dictionary.find?]
  | array items =>
      cases b with
      | primitive kind _ =>
          have hname := kind.name_ne.2.symm
          simp [toJson, Json.same, sameFieldsIn, Dictionary.find?, hname]
      | _ => simp_all [form, toJson, Json.same, sameFieldsIn, Dictionary.find?]
  | alternatives members =>
      cases b with
      | primitive _ dateTime =>
          cases dateTime <;> simp [toJson, Json.same, sameFieldsIn, Dictionary.find?]
      | object shape =>
          simp [toJson, Json.same, sameFieldsIn, Dictionary.find?,
            ObjectSchema.find?_toFields_of_ne]
      | _ => simp_all [form, toJson, Json.same, sameFieldsIn, Dictionary.find?]
  | unconstrained =>
      cases b <;> simp_all [form, toJson, Json.same]

/-- Schemas of different forms are different, and so is their JSON. -/
theorem Schema.same_toJson_of_form_ne {a b : Schema} (h : a.form ≠ b.form) :
    a.toJson.same b.toJson = a.same b := by
  have hdifferent : a.same b = false := by
    cases a <;> cases b <;> first | rfl | exact absurd rfl h
  rw [toJson_of_form_ne h, hdifferent]

mutual

/-- A schema is told by its JSON. -/
theorem Schema.same_toJson : ∀ {a : Schema}, (∀ literal : Literal, literal.OccursIn a →
    literal.Writable) → ∀ {b : Schema}, a.toJson.same b.toJson = a.same b
  | .primitive kind dateTime, _, b => by
      cases b with
      | primitive kind' dateTime' =>
          cases dateTime <;> cases dateTime' <;>
            simp [Schema.toJson, Json.same, sameFieldsIn, Dictionary.find?, Schema.same,
              Kind.name_beq]
      | _ => exact Schema.same_toJson_of_form_ne nofun
  | .multiType kinds, _, b => by
      cases b with
      | multiType kinds' =>
          simp [Schema.toJson, Json.same, sameFieldsIn, Dictionary.find?, Schema.same,
            sameItems_kinds]
      | _ => exact Schema.same_toJson_of_form_ne nofun
  | .enumeration kind values, h, b => by
      cases b with
      | enumeration kind' values' =>
          have hvalues : ∀ literal ∈ values, literal.Writable :=
            fun literal hmem => h literal (.value hmem)
          simp [Schema.toJson, Json.same, sameFieldsIn, Dictionary.find?, Schema.same,
            Kind.name_beq, sameItems_literals hvalues]
      | _ => exact Schema.same_toJson_of_form_ne nofun
  | .object shape, h, b => by
      cases b with
      | object shape' =>
          rw [ObjectSchema.same_toFields fun literal p hp hl => h literal (.property hp hl),
            Schema.same]
      | _ => exact Schema.same_toJson_of_form_ne nofun
  | .array items, h, b => by
      cases b with
      | array items' =>
          have hitems := Schema.same_toJson (b := items') fun literal hl => h literal (.items hl)
          simp [Schema.toJson, Json.same, sameFieldsIn, Dictionary.find?, Schema.same, hitems]
      | _ => exact Schema.same_toJson_of_form_ne nofun
  | .alternatives members, h, b => by
      cases b with
      | alternatives members' =>
          have hmembers : sameItems (Schema.listToJson members) (Schema.listToJson members') =
              sameMembers members members' :=
            Schema.same_listToJson fun literal m hm hl => h literal (.member hm hl)
          simp [Schema.toJson, Json.same, sameFieldsIn, Dictionary.find?, Schema.same, hmembers]
      | _ => exact Schema.same_toJson_of_form_ne nofun
  | .unconstrained, _, b => by
      cases b with
      | unconstrained => rfl
      | _ => exact Schema.same_toJson_of_form_ne nofun
termination_by structural a => a

/-- An object is told by the fields of its JSON, of which the empty ones are left out. -/
theorem ObjectSchema.same_toFields : ∀ {a : ObjectSchema}, (∀ literal : Literal, ∀ p ∈ a.properties,
    literal.OccursIn p.2 → literal.Writable) → ∀ {b : ObjectSchema},
      (Schema.object a).toJson.same (Schema.object b).toJson = a.same b
  | ⟨properties, required⟩, h, ⟨properties', required'⟩ => by
      have hproperties := Schema.same_propertiesToJson properties' h
      have hnone : samePropertiesIn [] [] = true := rfl
      rcases properties with _ | ⟨p, ps⟩ <;> rcases properties' with _ | ⟨p', ps'⟩ <;>
        rcases required with _ | ⟨r, rs⟩ <;> rcases required' with _ | ⟨r', rs'⟩ <;>
          simp_all [Schema.toJson, ObjectSchema.toFields, Json.same, sameFieldsIn, Dictionary.find?,
            ObjectSchema.same, sameItems_strings, Schema.length_propertiesToJson]
termination_by structural a => a

/-- Properties are told by their JSON. -/
theorem Schema.same_propertiesToJson (others : List (String × Schema)) :
    ∀ {properties : List (String × Schema)}, (∀ literal : Literal, ∀ p ∈ properties,
      literal.OccursIn p.2 → literal.Writable) →
        sameFieldsIn (Schema.propertiesToJson others) (Schema.propertiesToJson properties) =
          samePropertiesIn others properties
  | [], _ => rfl
  | (name, schema) :: rest, h => by
      rw [Schema.propertiesToJson, sameFieldsIn, samePropertiesIn, Schema.find?_propertiesToJson,
        Schema.same_propertiesToJson others fun l p hp => h l p (List.mem_cons_of_mem _ hp)]
      cases Dictionary.find? others name with
      | none => rfl
      | some schema' =>
          rw [Option.map_some]
          dsimp only
          rw [Schema.same_toJson fun l hl => h l _ List.mem_cons_self hl]
termination_by structural properties => properties

/-- Schemas are told by their JSON, place by place. -/
theorem Schema.same_listToJson : ∀ {as : List Schema}, (∀ literal : Literal, ∀ a ∈ as,
    literal.OccursIn a → literal.Writable) → ∀ {bs : List Schema},
      sameItems (Schema.listToJson as) (Schema.listToJson bs) = sameMembers as bs
  | [], _, [] => rfl
  | [], _, _ :: _ => rfl
  | _ :: _, _, [] => rfl
  | a :: as, h, b :: bs => by
      rw [Schema.listToJson, Schema.listToJson, sameItems, sameMembers,
        Schema.same_toJson fun l hl => h l a List.mem_cons_self hl,
        Schema.same_listToJson fun l m hm => h l m (List.mem_cons_of_mem a hm)]
termination_by structural as => as

end

namespace Schema

/-- **Nothing is lost in JSON**: of two schemas, of any depth and well-formed or not, of which the
    first has only numbers in its enumerations that are numbers, such as all whole numbers below
    nine quadrillion, the JSON is the same exactly if they are equal. -/
theorem told_apart_by_json {a b : Schema} (hnumbers : ∀ x, (Literal.number x).OccursIn a →
    ∃ q : ℚ, (Decimal.Binary.ofFloat x).value? = some q) :
    a.toJson.same b.toJson = true ↔ a.same b = true := by
  refine Bool.eq_iff_iff.mp (same_toJson fun literal hliteral x hx => ?_)
  subst hx
  obtain ⟨q, hq⟩ := hnumbers x hliteral
  obtain ⟨negative, mantissa, exponent, hx, -⟩ := Decimal.Binary.value?_eq_some_iff.mp hq
  rw [Decimal.isFinite, hx]

/-- The same JSON for another order of properties and for the other zero: the schemas are equal. -/
theorem reordered_told_alike :
    (Schema.object ⟨[("id", .literal (.number 0)), ("name", .string)], ["id"]⟩).same
      (.object ⟨[("name", .string), ("id", .literal (.number (-0)))], ["id"]⟩) = true := by
  refine (told_apart_by_json ?_).mp (by decide +kernel)
  have hzero : (Decimal.Binary.ofFloat 0).value? = some 0 :=
    Decimal.value?_of_smallInteger? (n := 0) (by decide +kernel)
  intro x hx
  cases hx with
  | property hp hx =>
      rcases List.mem_cons.mp hp with rfl | hp
      · cases hx with
        | value hx =>
            cases List.mem_singleton.mp hx
            exact ⟨0, hzero⟩
      · cases List.mem_singleton.mp hp
        cases hx

/-- The two infinities are lost: both are written as null. -/
example : (literal (.number (1 / 0))).toJson.same (literal (.number (-1 / 0))).toJson = true ∧
    (literal (.number (1 / 0))).same (literal (.number (-1 / 0))) = false := by
  decide +kernel

end Schema

end ElementCatalog
