import DalvikRules.Json.Reader

/-!
# Reading numbers

A number is read digit by digit into 64 bits. What does not fit any more only counts towards the
power of ten, and digits of the fraction that do not fit are dropped. The double is then one product
or quotient of the 64 bits and a power of ten, so it is the nearest double for numbers of everyday
length and may be a neighbour of it for longer ones.
-/

namespace DalvikRules.Json

/-- Appends digits to a number as long as it stays below the limit; the digits from the first one
on that does not fit are left over. -/
def absorb (significand : Nat) : List UInt8 → Nat × List UInt8
  | [] => (significand, [])
  | digit :: rest =>
    let longer := significand * 10 + digitValue digit
    if longer < word64Limit then absorb longer rest else (significand, digit :: rest)

/-- A power of ten as a double. -/
def powerOfTen (exponent : Nat) : Float :=
  Float.ofScientific 1 false exponent

/-- The double `x · 10 ^ exponent`. The largest power of ten that is a double is the 308th; a
smaller number is divided in several steps. -/
def scaleByPowerOfTen (x : Float) (exponent : Int) : Except Fault Float :=
  if 308 < exponent then if x == 0 then .ok x else .error .numberOutOfRange
  else if 0 ≤ exponent then
    let scaled := x * powerOfTen exponent.toNat
    if scaled.isInf then .error .numberOutOfRange else .ok scaled
  else if -308 ≤ exponent then .ok (x / powerOfTen exponent.natAbs)
  else if x == 0 then .ok x
  else scaleByPowerOfTen (x / powerOfTen 308) (exponent + 308)
termination_by exponent.natAbs
decreasing_by omega

/-- A double with the sign of a number. -/
def signed (negative : Bool) (x : Float) : Float :=
  if negative then -x else x

namespace Reader

/-- The double of a significand and a power of ten. -/
def real (negative : Bool) (significand : Nat) (exponent : Int) : Reader Number := do
  match scaleByPowerOfTen (Float.ofNat significand) exponent with
  | .ok x => return .real (signed negative x)
  | .error fault => throw fault

/-- What follows the sign of an exponent: at least one digit. An exponent beyond 31 bits makes the
number zero or puts it out of range. -/
def exponentDigits (negative : Bool) (significand : Nat) (exponent : Int) (shrinks : Bool) :
    Reader Number := do
  match ← next with
  | none => throw (.endOf .value)
  | some first =>
    if !isDigit first then throw .invalidNumber
    let written := (first :: (← digits)).foldl (fun n digit => n * 10 + digitValue digit) 0
    if 2 * written < word32Limit then
      real negative significand (if shrinks then exponent - written else exponent + written)
    else if significand = 0 ∨ shrinks then return .real (signed negative 0)
    else throw .numberOutOfRange

/-- The exponent of a number, from the letter on. -/
def exponentPart (negative : Bool) (significand : Nat) (exponent : Int) : Reader Number := do
  skip
  match ← peek with
  | some 0x2B =>
    skip
    exponentDigits negative significand exponent false
  | some 0x2D =>
    skip
    exponentDigits negative significand exponent true
  | _ => exponentDigits negative significand exponent false

/-- Whether a byte is the letter of an exponent. -/
def isExponentLetter (byte : Option UInt8) : Bool :=
  byte == some 0x65 || byte == some 0x45

/-- The fraction of a number, from the point on. -/
def fractionPart (negative : Bool) (significand : Nat) (exponent : Int) : Reader Number := do
  skip
  let written ← digits
  if written.isEmpty then
    match ← peek with
    | none => throw (.endOf .value)
    | some _ => throw .invalidNumber
  let (longer, dropped) := absorb significand written
  let exponent := exponent - (written.length - dropped.length : Nat)
  if isExponentLetter (← peek) then exponentPart negative longer exponent
  else real negative longer exponent

/-- A number after its sign. -/
def magnitude (negative : Bool) : Reader Number := do
  match ← next with
  | none => throw (.endOf .value)
  | some first =>
    if !isDigit first then throw .invalidNumber
    let more ← digits
    if first == 0x30 && !more.isEmpty then throw .invalidNumber
    let (significand, dropped) := absorb 0 (first :: more)
    let follows ← peek
    if follows == some 0x2E then fractionPart negative significand dropped.length
    else if isExponentLetter follows then exponentPart negative significand dropped.length
    else if !dropped.isEmpty then real negative significand dropped.length
    else if !negative then return .integer significand
    else if significand = 0 ∨ word64Limit < 2 * significand then
      return .real (-Float.ofNat significand)
    else return .integer (-significand)

/-- A number, whose first byte was looked at but not taken. -/
def number : Reader Number := do
  if (← peek) == some 0x2D then
    skip
    magnitude true
  else magnitude false

end Reader

end DalvikRules.Json
