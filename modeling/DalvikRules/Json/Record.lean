import DalvikRules.Json.Skip

/-!
# Reading records

A record is read straight from the bytes of a document. It is written as an object whose members
are the fields in any order, or as an array of the fields in their order. Members that are no field
are passed over. A field may stand once only; some fields may be left out, in an array at its end.
-/

namespace DalvikRules.Json

/-- A field of a record. -/
structure Field (ρ : Type) where
  name : String
  required : Bool
  /-- Reads the value of the field and stores it. -/
  read : ρ → Reader ρ

/-- How a record is written. -/
structure Shape (ρ : Type) where
  /-- What a value has to be, in messages. -/
  name : String
  fields : List (Field ρ)
  /-- The record with all optional fields left out. -/
  initial : ρ

namespace Reader

/-- Refuses the value that follows, because something else is expected. A value that is itself
malformed is refused for that reason. -/
def refuse {α : Type} (expected : String) : Reader α := do
  match ← peek with
  | some 0x6E =>
    skip
    ident [0x75, 0x6C, 0x6C]
    throw (.wrongType .null expected)
  | some 0x74 =>
    skip
    ident [0x72, 0x75, 0x65]
    throw (.wrongType (.bool true) expected)
  | some 0x66 =>
    skip
    ident [0x61, 0x6C, 0x73, 0x65]
    throw (.wrongType (.bool false) expected)
  | some 0x22 =>
    skip
    throw (.wrongType (.string (← text)) expected)
  | some 0x5B => throw (.wrongType .sequence expected)
  | some 0x7B => throw (.wrongType .map expected)
  | some byte =>
    if byte == 0x2D || isDigit byte then throw (.wrongType (.number (← number)) expected)
    else throw .expectedValue
  | none => throw .expectedValue

/-- A text. -/
def string : Reader String := do
  match ← peekToken with
  | none => throw (.endOf .value)
  | some 0x22 =>
    skip
    text
  | some _ => refuse "a string"

/-- An array whose items are read by `item`. -/
def list {α : Type} (item : Reader α) : Reader (List α) := do
  match ← peekToken with
  | none => throw (.endOf .value)
  | some 0x5B =>
    skip
    items item
  | some _ => refuse "a sequence"

/-- A natural number of 32 bits. -/
def word32 : Reader Nat := do
  match ← peekToken with
  | none => throw (.endOf .value)
  | some byte =>
    if byte == 0x2D || isDigit byte then
      match ← number with
      | .integer n =>
        if 0 ≤ n ∧ n.toNat < word32Limit then return n.toNat
        else throw (.wrongValue (.number (.integer n)) "u32")
      | .real x => throw (.wrongType (.number (.real x)) "u32")
    else refuse "u32"

/-- A value that may be `null`. -/
def optional {α : Type} (present : Reader α) : Reader (Option α) := do
  if (← peekToken) == some 0x6E then
    skip
    ident [0x75, 0x6C, 0x6C]
    return none
  else return some (← present)

/-- The fields of a record in their order, from the one at `position` on. An array that ends early
leaves the remaining fields out. -/
def fieldsInOrder {ρ : Type} (expected : String) : Nat → List (Field ρ) → ρ → Reader ρ
  | _, [], record => return record
  | position, field :: rest, record => do
    if ← moreItems (position == 0) then
      fieldsInOrder expected (position + 1) rest (← field.read record)
    else if field.required then throw (.wrongLength position expected)
    else fieldsInOrder expected (position + 1) rest record

/-- The fields of a record by their names, up to and with the end of the object. -/
def fieldsByName {ρ : Type} (shape : Shape ρ) : Reader ρ := do
  let (seen, record) ← loop (fun (first, seen, record) => do
    match ← nextName? first with
    | none => return .inr (seen, record)
    | some name =>
      match shape.fields.find? (·.name = name) with
      | none =>
        colon
        skipValue
        return .inl (false, seen, record)
      | some field =>
        if name ∈ seen then throw (.duplicateField name)
        colon
        return .inl (false, name :: seen, ← field.read record))
    (true, ([] : List String), shape.initial)
  match shape.fields.find? fun field => field.required && field.name ∉ seen with
  | some field => throw (.missingField field.name)
  | none =>
    skip
    return record

/-- A record of the given shape. -/
def record {ρ : Type} (shape : Shape ρ) : Reader ρ := do
  match ← peekToken with
  | none => throw (.endOf .value)
  | some 0x5B =>
    skip
    let expected := shape.name ++ " with " ++ toString shape.fields.length ++ " elements"
    let record ← fieldsInOrder expected 0 shape.fields shape.initial
    endOfItems
    return record
  | some 0x7B =>
    skip
    fieldsByName shape
  | some _ => refuse shape.name

end Reader

end DalvikRules.Json
