import DalvikRules.Loading
import DalvikRules.Proofs.Results
import DalvikRules.Proofs.SchemaFit

/-!
# The grammar of rules

A rule is described twice: by the schema that a document is checked against, and by the functions
that take it apart. Both are compared with a third description, what an author writes down. The
schema lets exactly the wordings of rules pass. Of these, exactly the ones whose score is an integer
of 32 bits are loaded, and the loaded rule has what was written down and nothing else.
-/

namespace DalvikRules

open Json

section Parts

variable {α β : Type} {f : α → β} {p : α → Prop}

theorem forall_mem_of_eq_some {part : Option β} {q : β → Prop} {b : β} (h : part = some b)
    (hb : q b) : ∀ other ∈ part, q other := by
  intro other hother
  rw [h, Option.mem_some_iff] at hother
  exact hother ▸ hb

/-- If a part is only there in a certain form, then it is the form of something, if it is there. -/
theorem forall_mem_option_iff {part : Option β} :
    (∀ b ∈ part, ∃ a, b = f a ∧ p a) ↔
      ∃ found : Option α, part = found.map f ∧ ∀ a ∈ found, p a := by
  constructor
  · intro h
    cases part with
    | none => exact ⟨none, rfl, nofun⟩
    | some b =>
      obtain ⟨a, rfl, ha⟩ := h b rfl
      exact ⟨some a, rfl, forall_mem_of_eq_some rfl ha⟩
  · rintro ⟨found, rfl, hfound⟩ b hb
    obtain ⟨a, ha, rfl⟩ := Option.map_eq_some_iff.mp hb
    exact ⟨a, rfl, hfound a ha⟩

/-- If all elements of a list have a certain form, then it is the form of a list. -/
theorem forall_mem_list_iff {l : List β} :
    (∀ b ∈ l, ∃ a, b = f a ∧ p a) ↔ ∃ found : List α, l = found.map f ∧ ∀ a ∈ found, p a := by
  constructor
  · intro h
    induction l with
    | nil => exact ⟨[], rfl, nofun⟩
    | cons b rest ih =>
      obtain ⟨hfirst, hrest⟩ := List.forall_mem_cons.mp h
      obtain ⟨a, rfl, ha⟩ := hfirst
      obtain ⟨found, rfl, hfound⟩ := ih hrest
      exact ⟨a :: found, rfl, List.forall_mem_cons.mpr ⟨ha, hfound⟩⟩
  · rintro ⟨found, rfl, hfound⟩ b hb
    obtain ⟨a, ha, rfl⟩ := List.mem_map.mp hb
    exact ⟨a, rfl, hfound a ha⟩

end Parts

/-- A method is written as an object with a class and a name. -/
def MethodRef.WrittenAs (method : MethodRef) (value : Value) : Prop :=
  ∃ members, value = .object members ∧
    members.lookup "class" = some (.string method.className) ∧
    members.lookup "method" = some (.string method.name)

/-- Neither the class of a method nor its name is empty. -/
def MethodRef.Named (method : MethodRef) : Prop :=
  method.className ≠ "" ∧ method.name ≠ ""

/-- A number as a double. -/
def Json.Number.toDouble : Number → Float
  | .integer n => if n < 0 then -Float.ofNat n.natAbs else Float.ofNat n.natAbs
  | .real x => x

namespace RuleDocument

/-- What is written down for a rule. The permissions and the weights may be left out. The score is a
whole number, but it may be of any size and written as a double. -/
structure Wording where
  crime : String
  permissions : Option (List String)
  first : MethodRef
  second : MethodRef
  score : Number
  weights : Option (Vector Number (levelCount + 1))
  named : first.Named ∧ second.Named
  scoreCounts : score.AtLeastZero ∧ score.isWhole
  weightsAtLeastZero : ∀ table ∈ weights, ∀ weight ∈ table, weight.AtLeastZero

/-- The members of an object in which a rule is written down. There may be others. -/
structure Wording.WrittenIn (wording : Wording) (members : List (String × Value)) : Prop where
  crime : members.lookup "crime" = some (.string wording.crime)
  permissions : members.lookup "x1_permission" =
    wording.permissions.map fun names => .array (names.map .string)
  methods : ∃ first second, members.lookup "x2n3n4_comb" = some (.array [first, second]) ∧
    wording.first.WrittenAs first ∧ wording.second.WrittenAs second
  score : members.lookup "yscore" = some (.number wording.score)
  weights : members.lookup "weights" =
    wording.weights.map fun table => .array (table.toList.map .number)

/-- A value is an object in which a rule is written down. -/
def Wording.WrittenAs (wording : Wording) (value : Value) : Prop :=
  ∃ members, value = .object members ∧ wording.WrittenIn members

/-- The rule of a wording. -/
def Wording.rule (wording : Wording) (score : Nat) (source : Option Path) : Rule where
  crime := wording.crime
  permissions := wording.permissions.getD []
  first := wording.first
  second := wording.second
  score := score
  weights := match wording.weights with
    | some table => table.map Number.toDouble
    | none => .ofScore score
  source := source

/-! ## What passes the schema -/

theorem fits_targetSchema_iff {value : Value} :
    targetSchema.Fits value ↔ ∃ method : MethodRef, method.WrittenAs value ∧ method.Named := by
  have htext (value : Value) :
      (Schema.text 1).Fits value ↔ ∃ s, value = .string s ∧ s ≠ "" := by
    simp only [Schema.fits_text_iff, Nat.one_le_iff_ne_zero, ne_eq, String.length_eq_zero_iff]
  rw [targetSchema, Schema.fits_record_iff]
  simp only [List.forall_mem_cons, Option.isSome_iff_exists, htext]
  constructor
  · rintro ⟨members, rfl, ⟨hclass, hmethod, -⟩, ⟨_, hclass'⟩, ⟨_, hmethod'⟩, -⟩
    obtain ⟨className, rfl, hclassName⟩ := hclass _ hclass'
    obtain ⟨name, rfl, hname⟩ := hmethod _ hmethod'
    exact ⟨⟨className, name⟩, ⟨members, rfl, hclass', hmethod'⟩, hclassName, hname⟩
  · rintro ⟨method, ⟨members, rfl, hclass, hmethod⟩, hclassName, hname⟩
    refine ⟨members, rfl, ⟨?_, ?_, nofun⟩, ⟨_, hclass⟩, ⟨_, hmethod⟩, nofun⟩
    · exact forall_mem_of_eq_some hclass ⟨_, rfl, hclassName⟩
    · exact forall_mem_of_eq_some hmethod ⟨_, rfl, hname⟩

theorem fits_methods_iff {value : Value} :
    (Schema.list targetSchema (some 2)).Fits value ↔
      ∃ first second : MethodRef, (∃ a b, value = .array [a, b] ∧
        first.WrittenAs a ∧ second.WrittenAs b) ∧ first.Named ∧ second.Named := by
  simp only [Schema.fits_list_iff, fits_targetSchema_iff]
  constructor
  · rintro ⟨found, rfl, hfound, hsize⟩
    obtain ⟨a, b, rfl⟩ := List.length_eq_two.mp (hsize 2 rfl)
    obtain ⟨first, hfirst, hfirstNamed⟩ := hfound a (by simp)
    obtain ⟨second, hsecond, hsecondNamed⟩ := hfound b (by simp)
    exact ⟨first, second, ⟨a, b, rfl, hfirst, hsecond⟩, hfirstNamed, hsecondNamed⟩
  · rintro ⟨first, second, ⟨a, b, rfl, hfirst, hsecond⟩, hfirstNamed, hsecondNamed⟩
    refine ⟨[a, b], rfl, ?_, fun _ => Option.mem_some_iff.mp⟩
    simp only [List.forall_mem_cons]
    exact ⟨⟨first, hfirst, hfirstNamed⟩, ⟨second, hsecond, hsecondNamed⟩, nofun⟩

theorem fits_texts_iff {value : Value} :
    (Schema.list (.text 0) none).Fits value ↔
      ∃ names : List String, value = .array (names.map .string) := by
  rw [Schema.fits_list_iff]
  constructor
  · rintro ⟨found, rfl, hfound, -⟩
    obtain ⟨names, rfl, -⟩ := forall_mem_list_iff.mp fun item hitem =>
      Schema.fits_text_iff.mp (hfound item hitem)
    exact ⟨names, rfl⟩
  · rintro ⟨names, rfl⟩
    refine ⟨_, rfl, fun item hitem => ?_, nofun⟩
    obtain ⟨name, -, rfl⟩ := List.mem_map.mp hitem
    exact .text (Nat.zero_le _)

theorem fits_table_iff {size : Nat} {value : Value} :
    (Schema.list (.number false) (some size)).Fits value ↔
      ∃ table : Vector Number size, value = .array (table.toList.map .number) ∧
        ∀ weight ∈ table, weight.AtLeastZero := by
  simp only [Schema.fits_list_iff, Schema.fits_number_iff]
  constructor
  · rintro ⟨found, rfl, hfound, hsize⟩
    obtain ⟨table, rfl, htable⟩ := forall_mem_list_iff.mp hfound
    have hlength : table.length = size := by simpa using hsize size rfl
    refine ⟨⟨table.toArray, hlength⟩, rfl, fun weight hweight => ?_⟩
    exact (htable weight (by simpa using hweight)).1
  · rintro ⟨table, rfl, htable⟩
    refine ⟨_, rfl, ?_, ?_⟩
    · intro item hitem
      obtain ⟨weight, hweight, rfl⟩ := List.mem_map.mp hitem
      exact ⟨weight, rfl, htable weight (Vector.mem_toList_iff.mp hweight), nofun⟩
    · refine forall_mem_of_eq_some rfl ?_
      rw [List.length_map, Vector.length_toList]

/-- A value fits the schema of rules exactly if a rule is written down in it. -/
theorem fits_schema_iff {value : Value} :
    schema.Fits value ↔ ∃ wording : Wording, wording.WrittenAs value := by
  rw [schema, Schema.fits_record_iff]
  simp only [List.forall_mem_cons, Option.isSome_iff_exists, fits_texts_iff, fits_table_iff,
    fits_methods_iff, Schema.fits_text_iff, Schema.fits_number_iff]
  constructor
  · rintro ⟨members, rfl, ⟨hcrime, hweights, hpermissions, hmethods, hscore, -⟩,
      ⟨_, hcrime'⟩, ⟨_, hmethods'⟩, ⟨_, hscore'⟩, -⟩
    obtain ⟨crime, rfl, -⟩ := hcrime _ hcrime'
    obtain ⟨weights, hweights, hatLeastZero⟩ := forall_mem_option_iff.mp hweights
    obtain ⟨permissions, hpermissions, -⟩ := forall_mem_option_iff.mp fun value hvalue =>
      (hpermissions value hvalue).imp fun _ h => ⟨h, trivial⟩
    obtain ⟨first, second, ⟨a, b, rfl, hfirst, hsecond⟩, hnamed⟩ := hmethods _ hmethods'
    obtain ⟨score, rfl, hsign, hwhole⟩ := hscore _ hscore'
    exact ⟨⟨crime, permissions, first, second, score, weights, hnamed, ⟨hsign, hwhole trivial⟩,
      hatLeastZero⟩, members, rfl,
      ⟨hcrime', hpermissions, ⟨a, b, hmethods', hfirst, hsecond⟩, hscore', hweights⟩⟩
  · rintro ⟨wording, members, rfl, h⟩
    obtain ⟨a, b, hmethods, hfirst, hsecond⟩ := h.methods
    refine ⟨members, rfl, ⟨?crime, ?weights, ?permissions, ?methods, ?score, nofun⟩,
      ⟨_, h.crime⟩, ⟨_, hmethods⟩, ⟨_, h.score⟩, nofun⟩
    case crime => exact forall_mem_of_eq_some h.crime ⟨_, rfl, Nat.zero_le _⟩
    case weights =>
      exact forall_mem_option_iff.mpr ⟨wording.weights, h.weights, wording.weightsAtLeastZero⟩
    case permissions =>
      rw [h.permissions]
      intro value hvalue
      obtain ⟨names, -, rfl⟩ := Option.map_eq_some_iff.mp hvalue
      exact ⟨names, rfl⟩
    case methods =>
      exact forall_mem_of_eq_some hmethods
        ⟨wording.first, wording.second, ⟨a, b, rfl, hfirst, hsecond⟩, wording.named⟩
    case score =>
      exact forall_mem_of_eq_some h.score
        ⟨_, rfl, wording.scoreCounts.1, fun _ => wording.scoreCounts.2⟩

/-! ## What is loaded -/

theorem field_of_lookup {α : Type} {name : String} {read : Value → Except Fault α}
    {members : List (String × Value)} {value : Value} (h : members.lookup name = some value) :
    field name read members = read value := by
  unfold field
  rw [h]

theorem target_of_writtenAs {method : MethodRef} {value : Value} (h : method.WrittenAs value) :
    target value = .ok method := by
  obtain ⟨members, rfl, hclass, hname⟩ := h
  rw [target, field_of_lookup hclass, field_of_lookup hname]
  rfl

theorem double_number (n : Number) : double (.number n) = .ok n.toDouble := by
  cases n <;> rfl

theorem weights_of_writtenIn {wording : Wording} {members : List (String × Value)}
    (h : wording.WrittenIn members) (score : Nat) (source : Option Path) :
    weights score members = .ok (wording.rule score source).weights := by
  unfold weights Wording.rule
  rw [h.weights]
  cases wording.weights with
  | none => rfl
  | some table =>
    have hread : list double (.array (table.toList.map .number)) =
        .ok (table.map Number.toDouble).toList := by
      rw [list, mapM_eq_ok_iff, Vector.toList_map, List.forall₂_map_left_iff,
        List.forall₂_map_right_iff, List.forall₂_same]
      exact fun weight _ => double_number weight
    simp only [Option.map_some, hread]
    rw [dif_pos (Vector.length_toList ..)]
    rfl

/-- A document in which a rule is written down is taken apart without fail but for its score. -/
theorem decode_of_writtenIn {wording : Wording} {members : List (String × Value)}
    (h : wording.WrittenIn members) :
    decode (.object members) =
      match word32 (.number wording.score) with
      | .ok score => .ok (wording.rule score none)
      | .error fault => .error (.unfit fault) := by
  obtain ⟨a, b, hmethods, hfirst, hsecond⟩ := h.methods
  have hpermissions (names : List String) : list text (.array (names.map .string)) = .ok names := by
    rw [list, mapM_eq_ok_iff, List.forall₂_map_left_iff, List.forall₂_same]
    exact fun _ _ => rfl
  have htargets : list target (.array [a, b]) = .ok [wording.first, wording.second] :=
    mapM_eq_ok_iff.mpr
      (.cons (target_of_writtenAs hfirst) (.cons (target_of_writtenAs hsecond) .nil))
  rw [decode, field_of_lookup h.crime, field_of_lookup hmethods, field_of_lookup h.score,
    h.permissions, htargets]
  cases word32 (.number wording.score) with
  | error fault =>
    cases wording.permissions with
    | none => rfl
    | some names =>
      simp only [Option.map_some, hpermissions]
      rfl
  | ok score =>
    -- What is left to do is the same whether there are permissions or not.
    have hrule (permissions : List String) :
        (weights score members >>= fun table => .ok
          ⟨wording.crime, permissions, wording.first, wording.second, score, table, none⟩) =
          .ok { wording.rule score none with permissions } := by
      rw [weights_of_writtenIn h score none]
      rfl
    unfold Wording.rule
    cases wording.permissions with
    | none => exact hrule []
    | some names =>
      simp only [Option.map_some, hpermissions]
      exact hrule names

theorem word32_integer {score : Nat} (h : score < word32Limit) :
    word32 (.number (.integer score)) = .ok score := by
  rw [word32, Int.toNat_natCast, if_pos ⟨Int.natCast_nonneg score, h⟩]

/-- A score that 32 bits do not take: a double, even one that is small and whole, or an integer that
is too large. -/
def RefusedScore (score : Number) (fault : Fault) : Prop :=
  (∃ x, score = .real x ∧ fault = .wrongType (.number score) "u32") ∨
    ∃ n : Nat, score = .integer n ∧ word32Limit ≤ n ∧ fault = .wrongValue (.number score) "u32"

theorem word32_cases {n : Number} (h : n.AtLeastZero) :
    (∃ score : Nat, n = .integer score ∧ score < word32Limit ∧ word32 (.number n) = .ok score) ∨
      ∃ fault, RefusedScore n fault ∧ word32 (.number n) = .error fault := by
  cases n with
  | real x => exact .inr ⟨_, .inl ⟨x, rfl, rfl⟩, rfl⟩
  | integer n =>
    obtain ⟨score, rfl⟩ := Int.eq_ofNat_of_zero_le h
    by_cases hscore : score < word32Limit
    · exact .inl ⟨score, rfl, hscore, word32_integer hscore⟩
    · refine .inr ⟨_, .inr ⟨score, rfl, Nat.le_of_not_lt hscore, rfl⟩, ?_⟩
      rw [word32, Int.toNat_natCast, if_neg fun hfits => hscore hfits.2]

/-- A wording without weights gets the default ones. -/
theorem Wording.weight_of_default {wording : Wording} (h : wording.weights = none) (score : Nat)
    (source : Option Path) :
    (wording.rule score source).weight 0 = 0 ∧
      ∀ n < levelCount, (wording.rule score source).weight (n + 1) =
        Float.ofNat score * Float.ofNat (Nat.pow 2 n) / 16 := by
  have hweight (n : Nat) (hn : n ≤ levelCount) :
      (wording.rule score source).weight n = defaultWeight score n := by
    have htable : (wording.rule score source).weights = .ofScore score := by
      unfold Wording.rule
      rw [h]
    unfold Rule.weight
    simp only [htable, Nat.min_eq_left hn]
    exact Vector.getElem_ofFn (Nat.lt_succ_of_le hn)
  constructor
  · exact hweight 0 (Nat.zero_le _)
  · exact fun n hn => hweight (n + 1) hn

end RuleDocument

namespace Rule

open RuleDocument

theorem ofValue_of_writtenAs (path : Path) {wording : Wording} {value : Value}
    (h : wording.WrittenAs value) :
    ofValue path value =
      match word32 (.number wording.score) with
      | .ok score => .ok (wording.rule score (some path))
      | .error fault => .error (.undecodable path (.unfit fault)) := by
  have hvalid : schema.violations value = [] :=
    (schema.violations_eq_nil_iff value).mpr (fits_schema_iff.mpr ⟨wording, h⟩)
  obtain ⟨members, rfl, hmembers⟩ := h
  unfold ofValue
  rw [hvalid, decode_of_writtenIn hmembers]
  cases word32 (.number wording.score) <;> rfl

theorem ofValue_of_not_writtenAs (path : Path) {value : Value}
    (h : ¬ ∃ wording : Wording, wording.WrittenAs value) :
    schema.violations value ≠ [] ∧
      ofValue path value = .error (.invalid path (schema.violations value)) := by
  have hinvalid : schema.violations value ≠ [] := fun hvalid =>
    h (fits_schema_iff.mp ((schema.violations_eq_nil_iff value).mp hvalid))
  refine ⟨hinvalid, ?_⟩
  unfold ofValue
  split
  case h_1 hvalid => exact absurd hvalid hinvalid
  case h_2 => rfl

theorem ofValue_eq_ok_iff {path : Path} {value : Value} {rule : Rule} :
    ofValue path value = .ok rule ↔
      ∃ (wording : Wording) (score : Nat), wording.WrittenAs value ∧
        wording.score = .integer score ∧ score < word32Limit ∧
        rule = wording.rule score (some path) := by
  constructor
  · intro h
    by_cases hwritten : ∃ wording : Wording, wording.WrittenAs value
    · obtain ⟨wording, hwritten⟩ := hwritten
      rw [ofValue_of_writtenAs path hwritten] at h
      obtain ⟨score, hscore, hsmall, hread⟩ | ⟨_, -, hread⟩ := word32_cases wording.scoreCounts.1
      · rw [hread] at h
        exact ⟨wording, score, hwritten, hscore, hsmall, (Except.ok.inj h).symm⟩
      · rw [hread] at h
        cases h
    · rw [(ofValue_of_not_writtenAs path hwritten).2] at h
      cases h
  · rintro ⟨wording, score, hwritten, hscore, hsmall, rfl⟩
    rw [ofValue_of_writtenAs path hwritten, hscore, word32_integer hsmall]

theorem eq_of_ofValue_eq_error {path : Path} {value : Value} {error : LoadError}
    (h : ofValue path value = .error error) :
    (schema.violations value ≠ [] ∧ error = .invalid path (schema.violations value)) ∨
      ∃ (wording : Wording) (fault : Fault), wording.WrittenAs value ∧
        RefusedScore wording.score fault ∧ error = .undecodable path (.unfit fault) := by
  by_cases hwritten : ∃ wording : Wording, wording.WrittenAs value
  · obtain ⟨wording, hwritten⟩ := hwritten
    rw [ofValue_of_writtenAs path hwritten] at h
    obtain ⟨score, -, -, hread⟩ | ⟨fault, hrefused, hread⟩ := word32_cases wording.scoreCounts.1
    · rw [hread] at h
      cases h
    · rw [hread] at h
      exact .inr ⟨wording, fault, hwritten, hrefused, (Except.error.inj h).symm⟩
  · obtain ⟨hinvalid, hvalue⟩ := ofValue_of_not_writtenAs path hwritten
    rw [hvalue] at h
    exact .inl ⟨hinvalid, (Except.error.inj h).symm⟩

/-- Rules are loaded exactly from the values in which a rule is written down with an integer of 32
bits for its score, and what is loaded is what was written down. A value that passes the schema is
refused only for its score: the numbers of its methods and of its weights are never at fault. -/
theorem ofValue_follows_grammar (path : Path) (value : Value) :
    (∀ rule, ofValue path value = .ok rule ↔
      ∃ (wording : Wording) (score : Nat), wording.WrittenAs value ∧
        wording.score = .integer score ∧ score < word32Limit ∧
        rule = wording.rule score (some path)) ∧
    (∀ error, schema.violations value = [] → ofValue path value = .error error →
      ∃ (wording : Wording) (fault : Fault), wording.WrittenAs value ∧
        RefusedScore wording.score fault ∧ error = .undecodable path (.unfit fault)) ∧
    (∀ n, ofValue path value ≠ .error (.undecodable path (.targetCount n)) ∧
      ofValue path value ≠ .error (.undecodable path (.weightCount n))) ∧
    ∀ (wording : Wording) (score : Nat), wording.weights = none →
      (wording.rule score (some path)).weight 0 = 0 ∧
        ∀ n < levelCount, (wording.rule score (some path)).weight (n + 1) =
          Float.ofNat score * Float.ofNat (Nat.pow 2 n) / 16 := by
  refine ⟨fun rule => ofValue_eq_ok_iff, ?refused, ?counts, fun wording score h =>
    wording.weight_of_default h score (some path)⟩
  case refused =>
    intro error hvalid h
    obtain ⟨hinvalid, -⟩ | hrefused := eq_of_ofValue_eq_error h
    · exact absurd hvalid hinvalid
    · exact hrefused
  case counts =>
    intro n
    constructor
    all_goals
      intro h
      obtain ⟨-, herror⟩ | ⟨_, _, -, -, herror⟩ := eq_of_ofValue_eq_error h <;> cases herror

end Rule

end DalvikRules
