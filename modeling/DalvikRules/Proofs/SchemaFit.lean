import DalvikRules.Json.Schema

/-!
# Fitting a schema

The check of a value against a schema reports violations. Here the same is said without reports: a
value fits a schema if it has its type and its parts fit in turn. The check finds nothing wrong with
a value exactly if the value fits.
-/

namespace DalvikRules.Json

namespace Number

/-- A number is at least zero. No document has NaN for a number, and NaN is not below zero. -/
def AtLeastZero : Number → Prop
  | integer n => 0 ≤ n
  | real x => x.isNaN = false → 0 ≤ x

/-- Every double other than NaN compares with zero. -/
theorem not_lt_zero_iff (x : Float) : ¬ x < 0 ↔ (x.isNaN = false → 0 ≤ x) := by
  have hzero : (0 : Float).toModel.unpack = .zero .positive := rfl
  have hlt : x < 0 ↔ x.toModel.unpack.lt (0 : Float).toModel.unpack = true := decide_eq_true_iff
  have hle : 0 ≤ x ↔ (0 : Float).toModel.unpack.le x.toModel.unpack = true := decide_eq_true_iff
  have hnan : x.isNaN = x.toModel.unpack.isNaN := rfl
  rw [hlt, hle, hnan, hzero]
  -- Both comparisons with zero look at the sign only, and NaN is in neither.
  cases x.toModel.unpack with
  | notANumber => decide
  | zero sign => cases sign <;> decide
  | infinity sign => cases sign <;> decide
  | finite sign mantissa exponent hpos =>
    cases sign with
    | negative => exact iff_of_false (fun h => h rfl) fun h => nomatch h rfl
    | positive => exact iff_of_true (fun h => nomatch h) fun _ => rfl

theorem isNegative_eq_false_iff (n : Number) : n.isNegative = false ↔ n.AtLeastZero := by
  cases n with
  | integer n =>
    unfold isNegative AtLeastZero
    rw [decide_eq_false_iff_not]
    omega
  | real x =>
    unfold isNegative AtLeastZero
    rw [decide_eq_false_iff_not, not_lt_zero_iff]

end Number

namespace Schema

/-- A value looks like a schema says. -/
inductive Fits : Schema → Value → Prop
  | text {minLength : Nat} {s : String} (hlength : minLength ≤ s.length) :
    Fits (.text minLength) (.string s)
  | number {whole : Bool} {n : Number} (hsign : n.AtLeastZero) (hwhole : whole → n.isWhole) :
    Fits (.number whole) (.number n)
  | list {items : Schema} {size : Option Nat} {found : List Value}
    (hitems : ∀ item ∈ found, items.Fits item) (hsize : ∀ n ∈ size, found.length = n) :
    Fits (.list items size) (.array found)
  | record {properties : List (String × Schema)} {required : List String}
    {members : List (String × Value)}
    (hmembers : ∀ property ∈ properties, ∀ value ∈ members.lookup property.1,
      property.2.Fits value)
    (hrequired : ∀ name ∈ required, (members.lookup name).isSome) :
    Fits (.record properties required) (.object members)

/-! ## What fits each kind of schema -/

theorem fits_text_iff {minLength : Nat} {value : Value} :
    (text minLength).Fits value ↔ ∃ s, value = .string s ∧ minLength ≤ s.length := by
  constructor
  · rintro ⟨hlength⟩
    exact ⟨_, rfl, hlength⟩
  · rintro ⟨s, rfl, hlength⟩
    exact .text hlength

theorem fits_number_iff {whole : Bool} {value : Value} :
    (number whole).Fits value ↔
      ∃ n, value = .number n ∧ n.AtLeastZero ∧ (whole → n.isWhole) := by
  constructor
  · intro h
    cases h with
    | number hsign hwhole => exact ⟨_, rfl, hsign, hwhole⟩
  · rintro ⟨n, rfl, hsign, hwhole⟩
    exact .number hsign hwhole

theorem fits_list_iff {items : Schema} {size : Option Nat} {value : Value} :
    (list items size).Fits value ↔
      ∃ found, value = .array found ∧ (∀ item ∈ found, items.Fits item) ∧
        ∀ n ∈ size, found.length = n := by
  constructor
  · intro h
    cases h with
    | list hitems hsize => exact ⟨_, rfl, hitems, hsize⟩
  · rintro ⟨found, rfl, hitems, hsize⟩
    exact .list hitems hsize

theorem fits_record_iff {properties : List (String × Schema)} {required : List String}
    {value : Value} :
    (record properties required).Fits value ↔
      ∃ members, value = .object members ∧
        (∀ property ∈ properties, ∀ value ∈ members.lookup property.1,
          property.2.Fits value) ∧
        ∀ name ∈ required, (members.lookup name).isSome := by
  constructor
  · intro h
    cases h with
    | record hmembers hrequired => exact ⟨_, rfl, hmembers, hrequired⟩
  · rintro ⟨members, rfl, hmembers, hrequired⟩
    exact .record hmembers hrequired

/-! ## What it takes for no violation to be reported -/

theorem violations_text_eq_nil_iff (minLength : Nat) (value : Value) :
    (text minLength).violations value = [] ↔ (text minLength).Fits value := by
  rw [fits_text_iff]
  cases value <;> simp [violations]

theorem violations_number_eq_nil_iff (whole : Bool) (value : Value) :
    (number whole).violations value = [] ↔ (number whole).Fits value := by
  rw [fits_number_iff]
  cases value with
  | number n =>
    have hsign := n.isNegative_eq_false_iff
    cases whole <;> simp [violations, ← hsign]
  | _ => simp [violations]

/-- The size of an array is tested twice, and the tests fail for different sizes. -/
theorem violations_list_eq_nil_iff (items : Schema) (size : Option Nat) (value : Value)
    (hitems : ∀ item, items.violations item = [] ↔ items.Fits item) :
    (list items size).violations value = [] ↔ (list items size).Fits value := by
  rw [fits_list_iff]
  cases value with
  | array found =>
    cases size with
    | none => simp [violations, hitems]
    | some n =>
      have hsize : ¬ n < found.length ∧ ¬ found.length < n ↔ found.length = n := by omega
      simp [violations, hitems, ← hsize]
  | _ => simp [violations]

theorem memberViolations_eq_nil_iff (properties : List (String × Schema))
    (members : List (String × Value)) :
    memberViolations properties members = [] ↔
      ∀ property ∈ properties, ∀ value ∈ members.lookup property.1,
        property.2.violations value = [] := by
  induction properties with
  | nil => simp [memberViolations]
  | cons property rest ih =>
    rw [memberViolations, List.append_eq_nil_iff, ih, List.forall_mem_cons]
    refine and_congr_left fun _ => ?_
    cases members.lookup property.1 <;> simp

theorem violations_record_eq_nil_iff (properties : List (String × Schema)) (required : List String)
    (value : Value)
    (hproperties : ∀ property ∈ properties, ∀ value,
      property.2.violations value = [] ↔ property.2.Fits value) :
    (record properties required).violations value = [] ↔
      (record properties required).Fits value := by
  rw [fits_record_iff]
  cases value with
  | object members =>
    have hmembers : memberViolations properties members = [] ↔
        ∀ property ∈ properties, ∀ value ∈ members.lookup property.1, property.2.Fits value := by
      rw [memberViolations_eq_nil_iff]
      exact forall₂_congr fun property hproperty =>
        forall₂_congr fun value _ => hproperties property hproperty value
    simp [violations, hmembers, Option.isSome_iff_ne_none]
  | _ => simp [violations]

/-- The check finds nothing wrong with a value exactly if the value fits the schema. -/
theorem violations_eq_nil_iff (schema : Schema) (value : Value) :
    schema.violations value = [] ↔ schema.Fits value := by
  match schema with
  | text minLength => exact violations_text_eq_nil_iff minLength value
  | number whole => exact violations_number_eq_nil_iff whole value
  | list items size =>
    exact violations_list_eq_nil_iff items size value fun item => violations_eq_nil_iff items item
  | record properties required =>
    refine violations_record_eq_nil_iff properties required value fun (name, items) h item => ?_
    have hsize := List.sizeOf_lt_of_mem h
    exact violations_eq_nil_iff items item
termination_by schema
decreasing_by
  · rw [list.sizeOf_spec]
    omega
  · rw [Prod.mk.sizeOf_spec] at hsize
    rw [record.sizeOf_spec]
    omega

end Schema

end DalvikRules.Json
