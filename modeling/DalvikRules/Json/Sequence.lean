import DalvikRules.Json.Number
import DalvikRules.Json.Text

/-!
# Reading what stands between brackets

Arrays and objects share the way in which their parts follow one another: a comma between two
parts, none before the first and none after the last.
-/

namespace DalvikRules.Json.Reader

/-- Whether another item of an array follows; a comma before it is taken. -/
def moreItems (first : Bool) : Reader Bool := do
  match ← peekToken with
  | none => throw (.endOf .list)
  | some 0x5D => return false
  | some byte =>
    if first then return true
    if byte != 0x2C then throw .expectedListSeparator
    skip
    match ← peekToken with
    | none => throw (.endOf .value)
    | some 0x5D => throw .trailingComma
    | some _ => return true

/-- Takes the end of an array of which no item is expected any more. -/
def endOfItems : Reader Unit := do
  match ← peekToken with
  | none => throw (.endOf .list)
  | some 0x5D => skip
  | some 0x2C =>
    skip
    if (← peekToken) == some 0x5D then throw .trailingComma else throw .trailingCharacters
  | some _ => throw .trailingCharacters

/-- The name of the next member of an object, if another one follows; a comma before it is
taken. -/
def nextName? (first : Bool) : Reader (Option String) := do
  let some byte ← peekToken | throw (.endOf .object)
  if byte == 0x7D then return none
  if !first then
    if byte != 0x2C then throw .expectedObjectSeparator
    skip
  match ← peekToken with
  | none => throw (.endOf .value)
  | some 0x22 =>
    skip
    return some (← text)
  | some 0x7D => throw .trailingComma
  | some _ => throw .keyMustBeString

/-- Takes the colon between the name of a member and its value. -/
def colon : Reader Unit := do
  match ← peekToken with
  | none => throw (.endOf .object)
  | some 0x3A => skip
  | some _ => throw .expectedColon

/-- The items of an array after its opening bracket, up to and with its end. -/
def items {α : Type} (item : Reader α) : Reader (List α) := do
  let found ← loop (fun found : List α => do
    if ← moreItems found.isEmpty then return .inl ((← item) :: found)
    else return .inr found) []
  skip
  return found.reverse

/-- Makes sure that nothing but white space is left. -/
def endOfDocument : Reader Unit := do
  if (← peekToken).isSome then throw .trailingCharacters

end DalvikRules.Json.Reader
