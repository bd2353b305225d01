import DalvikRules.Json.Fault
import DalvikRules.Json.Schema
import DalvikRules.Rule

/-!
# Rule documents

A rule is written as an object with the members `crime`, `x1_permission`, `x2n3n4_comb`, `yscore`
and `weights`. The document is first checked against a schema and then taken apart. The schema
knows whole numbers of any size and notation, while a score is a number of 32 bits that is written
without a fraction, so a document may pass the check and still not be a rule.
-/

namespace DalvikRules

/-- Why a document is not a rule although its parts have the right shape. -/
inductive RuleFault
  | unfit (fault : Json.Fault)
  | targetCount (n : Nat)
  | weightCount (n : Nat)
deriving Repr

namespace RuleFault

/-- The wording of a fault. -/
def message : RuleFault → String
  | unfit fault => fault.message
  | targetCount n => "rule needs exactly two API targets, found " ++ toString n
  | weightCount n =>
    "weight table needs " ++ toString (levelCount + 1) ++ " entries, found " ++ toString n

end RuleFault

namespace RuleDocument

open Json

/-- How one of the two methods is written. -/
def targetSchema : Schema :=
  .record [("class", .text 1), ("method", .text 1)] ["class", "method"]

/-- How a rule is written. -/
def schema : Schema :=
  .record
    [("crime", .text 0),
      ("weights", .list (.number false) (some (levelCount + 1))),
      ("x1_permission", .list (.text 0) none),
      ("x2n3n4_comb", .list targetSchema (some 2)),
      ("yscore", .number true)]
    ["crime", "x2n3n4_comb", "yscore"]

/-- A text. -/
def text : Value → Except Fault String
  | .string s => .ok s
  | value => .error (.wrongType (.ofValue value) "a string")

/-- A list of values that are read by `item`. -/
def list {α : Type} (item : Value → Except Fault α) : Value → Except Fault (List α)
  | .array items => items.mapM item
  | value => .error (.wrongType (.ofValue value) "a sequence")

/-- A double, which may be written as a whole number. -/
def double : Value → Except Fault Float
  | .number (.integer n) => .ok (if n < 0 then -Float.ofNat n.natAbs else Float.ofNat n.natAbs)
  | .number (.real x) => .ok x
  | value => .error (.wrongType (.ofValue value) "f64")

/-- A natural number of 32 bits. -/
def word32 : Value → Except Fault Nat
  | .number (.integer n) =>
    if 0 ≤ n ∧ n.toNat < word32Limit then .ok n.toNat
    else .error (.wrongValue (.number (.integer n)) "u32")
  | value => .error (.wrongType (.ofValue value) "u32")

/-- A member that has to be there. -/
def field {α : Type} (name : String) (read : Value → Except Fault α)
    (members : List (String × Value)) : Except Fault α :=
  match members.lookup name with
  | some value => read value
  | none => .error (.missingField name)

/-- One of the two methods. -/
def target : Value → Except Fault MethodRef
  | .object members => do
    return ⟨← field "class" text members, ← field "method" text members⟩
  | value => .error (.wrongType (.ofValue value) "struct ApiTarget")

/-- The weights of a rule: those in the document, or the default table if there are none. -/
def weights (score : Nat) (members : List (String × Value)) : Except RuleFault WeightTable :=
  match members.lookup "weights" with
  | none | some .null => .ok (.ofScore score)
  | some value =>
    match list double value with
    | .error fault => .error (.unfit fault)
    | .ok table =>
      if h : table.length = levelCount + 1 then .ok ⟨table.toArray, by simpa using h⟩
      else .error (.weightCount table.length)

/-- Takes a document apart. -/
def decode : Value → Except RuleFault Rule
  | .object members => do
    let crime ← (field "crime" text members).mapError .unfit
    let permissions ← match members.lookup "x1_permission" with
      | some value => (list text value).mapError .unfit
      | none => .ok []
    let targets ← (field "x2n3n4_comb" (list target) members).mapError .unfit
    let score ← (field "yscore" word32 members).mapError .unfit
    match targets with
    | [first, second] =>
      return {
        crime
        permissions
        first
        second
        score
        weights := ← weights score members
        source := none }
    | _ => .error (.targetCount targets.length)
  | value => .error (.unfit (.wrongType (.ofValue value) "struct RuleDocument"))

end RuleDocument

end DalvikRules
