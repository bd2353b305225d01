import DalvikRules.Json.Sequence

/-!
# Passing over values

A value that nobody asked for is passed over without being built, to any depth. Its grammar is
checked less strictly than that of a value that is read: numbers have no range, and the bytes of
texts are not looked at. The open brackets are kept in a list, innermost first.
-/

namespace DalvikRules.Json

/-- An open bracket. -/
inductive Bracket
  | list
  | object
deriving DecidableEq, Repr

namespace Reader

/-- Passes over digits, of which there has to be one. -/
def skipDigits : Reader Unit := do
  if (← digits).isEmpty then throw .invalidNumber

/-- Passes over the exponent of a number. -/
def skipExponent : Reader Unit := do
  skip
  let sign ← peek
  if sign == some 0x2B || sign == some 0x2D then skip
  skipDigits

/-- Passes over a number after its sign. -/
def skipMagnitude : Reader Unit := do
  let first ← peek
  let written ← digits
  if written.isEmpty then throw .invalidNumber
  if first == some 0x30 && written.length != 1 then throw .invalidNumber
  let follows ← peek
  if follows == some 0x2E then
    skip
    skipDigits
    if isExponentLetter (← peek) then skipExponent
  else if isExponentLetter follows then skipExponent

/-- Passes over a value without parts, or opens a bracket. -/
def skipScalar : Reader (Option Bracket) := do
  match ← peekToken with
  | none => throw (.endOf .value)
  | some 0x6E =>
    skip
    ident [0x75, 0x6C, 0x6C]
    return none
  | some 0x74 =>
    skip
    ident [0x72, 0x75, 0x65]
    return none
  | some 0x66 =>
    skip
    ident [0x61, 0x6C, 0x73, 0x65]
    return none
  | some 0x2D =>
    skip
    skipMagnitude
    return none
  | some 0x22 =>
    skip
    skipText
    return none
  | some 0x5B =>
    skip
    return some .list
  | some 0x7B =>
    skip
    return some .object
  | some byte =>
    if isDigit byte then
      skipMagnitude
      return none
    else throw .expectedValue

/-- Passes over closing brackets until another part of an open one follows. What is left open is
returned; it is empty once the outermost bracket is closed. `complete` says whether the innermost
bracket holds a complete part, so that a comma may follow. -/
def closeBrackets (start : List Bracket) (complete : Bool) : Reader (List Bracket) :=
  loop (fun (opened, complete) => do
    match opened with
    | [] => return .inr []
    | bracket :: outer =>
      match ← peekToken with
      | none => throw (.endOf (match bracket with | .list => .list | .object => .object))
      | some byte =>
        if complete && byte == 0x2C then
          skip
          return .inr (bracket :: outer)
        else if byte == (match bracket with | .list => 0x5D | .object => 0x7D) then
          skip
          return .inl (outer, true)
        else if complete then
          throw (match bracket with
            | .list => .expectedListSeparator
            | .object => .expectedObjectSeparator)
        else return .inr (bracket :: outer)) (start, complete)

/-- Passes over the name of a member and the colon after it. -/
def skipName : Reader Unit := do
  match ← peekToken with
  | none => throw (.endOf .object)
  | some 0x22 =>
    skip
    skipText
    colon
  | some _ => throw .keyMustBeString

/-- Passes over a value. -/
def skipValue : Reader Unit :=
  loop (fun opened => do
    let (opened, complete) := match ← skipScalar with
      | some bracket => (bracket :: opened, false)
      | none => (opened, true)
    match ← closeBrackets opened complete with
    | [] => return .inr ()
    | .list :: outer => return .inl (.list :: outer)
    | .object :: outer =>
      skipName
      return .inl (.object :: outer)) []

end Reader

end DalvikRules.Json
