import DalvikRules.Json.Sequence

/-!
# Reading JSON

A document is one value with white space around it. Of members of the same name the last one
counts. Arrays and objects nest up to a fixed depth.
-/

namespace DalvikRules.Json

/-- How many arrays and objects may be open at once, counting the one that is refused. -/
def depthLimit : Nat := 128

namespace Reader

/-- The members of an object after its opening brace, up to and with its end. -/
def members (value : Reader Value) : Reader (List (String × Value)) := do
  let found ← loop (fun (first, found) => do
    match ← nextName? first with
    | none => return .inr found
    | some name =>
      colon
      return .inl (false, insertMember name (← value) found)) (true, [])
  skip
  return found

/-- A value; `depth` is how many brackets may still be opened, less one. -/
def value : Nat → Reader Value
  | 0 => throw .nestedTooDeeply
  | depth + 1 => do
    match ← peekToken with
    | none => throw (.endOf .value)
    | some 0x6E =>
      skip
      ident [0x75, 0x6C, 0x6C]
      return .null
    | some 0x74 =>
      skip
      ident [0x72, 0x75, 0x65]
      return .bool true
    | some 0x66 =>
      skip
      ident [0x61, 0x6C, 0x73, 0x65]
      return .bool false
    | some 0x22 =>
      skip
      return .string (← text)
    | some 0x5B =>
      if depth = 0 then throw .nestedTooDeeply
      skip
      return .array (← items (value depth))
    | some 0x7B =>
      if depth = 0 then throw .nestedTooDeeply
      skip
      return .object (← members (value depth))
    | some byte =>
      if byte == 0x2D || isDigit byte then return .number (← number)
      else throw .expectedValue

end Reader

/-- Reads a document. -/
def parse (document : List UInt8) : Except Fault Value :=
  Reader.run (do
    let value ← Reader.value depthLimit
    Reader.endOfDocument
    return value) document

end DalvikRules.Json
