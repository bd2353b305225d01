import DalvikRules.Json.Printer

/-!
# Schemas of documents

A schema says what a value has to look like. Checking a value lists everything that is wrong with
it: first what is wrong inside it, then its size or range, then its type. A value of another type is
only reported for its type. Members that a schema does not mention are free.
-/

namespace DalvikRules.Json

/-- What a value has to look like. -/
inductive Schema
  /-- A text of at least `minLength` characters. -/
  | text (minLength : Nat)
  /-- A number that is not negative, and whole if `whole` holds. -/
  | number (whole : Bool)
  /-- An array of exactly `size` items, or of any size, whose items fit `items`. -/
  | list (items : Schema) (size : Option Nat)
  /-- An object whose members fit `properties` where they are there, and which has all `required`
  members. -/
  | record (properties : List (String × Schema)) (required : List String)
deriving Repr

/-- Something that is wrong with a value. -/
inductive Violation
  | wrongType (value : Value) (type : String)
  | negative (value : Value)
  | tooFewItems (value : Value) (size : Nat)
  | tooManyItems (value : Value) (size : Nat)
  | tooShort (value : Value) (length : Nat)
  | missing (name : String)
deriving Repr

namespace Violation

/-- A number of things; one of them is no plural. -/
def counted (n : Nat) (thing : String) : String :=
  toString n ++ " " ++ thing ++ (if n = 1 then "" else "s")

/-- The wording of a violation. -/
def message : Violation → String
  | wrongType value type => value.compact ++ " is not of type " ++ quote type
  | negative value => value.compact ++ " is less than the minimum of 0"
  | tooFewItems value size => value.compact ++ " has less than " ++ counted size "item"
  | tooManyItems value size => value.compact ++ " has more than " ++ counted size "item"
  | tooShort value length => value.compact ++ " is shorter than " ++ counted length "character"
  | missing name => quote name ++ " is a required property"

end Violation

namespace Number

/-- Whether a number is less than zero. -/
def isNegative : Number → Bool
  | integer n => n < 0
  | real x => x < 0

/-- Whether a number has no fraction. -/
def isWhole : Number → Bool
  | integer _ => true
  | real x => x.floor == x

end Number

namespace Schema

mutual

/-- Everything that is wrong with a value, in order. -/
def violations : Schema → Value → List Violation
  | .text minLength, value =>
    match value with
    | .string s => if s.length < minLength then [.tooShort value minLength] else []
    | _ => [.wrongType value "string"]
  | .number whole, value =>
    match value with
    | .number n =>
      (if n.isNegative then [.negative value] else []) ++
        (if whole && !n.isWhole then [.wrongType value "integer"] else [])
    | _ => [.wrongType value (if whole then "integer" else "number")]
  | .list items size, value =>
    match value with
    | .array found =>
      found.flatMap (violations items) ++
        (match size with
        | none => []
        | some size =>
          (if size < found.length then [.tooManyItems value size] else []) ++
            (if found.length < size then [.tooFewItems value size] else []))
    | _ => [.wrongType value "array"]
  | .record properties required, value =>
    match value with
    | .object members =>
      memberViolations properties members ++
        (required.filter fun name => (members.lookup name).isNone).map .missing
    | _ => [.wrongType value "object"]

/-- Everything that is wrong with the members that have a schema, in the order of the schemas. -/
def memberViolations : List (String × Schema) → List (String × Value) → List Violation
  | [], _ => []
  | (name, schema) :: rest, members =>
    (match members.lookup name with
    | some value => violations schema value
    | none => []) ++ memberViolations rest members

end

end Schema

end DalvikRules.Json
