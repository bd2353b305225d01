import DalvikRules.Json.Reader

/-!
# Reading texts

A text ends at the first quote that is not escaped. Its bytes have to be UTF-8 once the escapes are
replaced; an escape outside the basic plane is written as a pair of surrogates.
-/

namespace DalvikRules.Json

/-- The number of a hexadecimal digit of either case. -/
def hexValue? (byte : UInt8) : Option Nat :=
  if isDigit byte then some (digitValue byte)
  else if 0x61 ≤ byte && byte ≤ 0x66 then some (byte.toNat - 0x61 + 10)
  else if 0x41 ≤ byte && byte ≤ 0x46 then some (byte.toNat - 0x41 + 10)
  else none

/-- The number of four hexadecimal digits. -/
def hexQuad (a b c d : UInt8) : Except Fault Nat :=
  match hexValue? a, hexValue? b, hexValue? c, hexValue? d with
  | some a, some b, some c, some d => .ok (((a * 16 + b) * 16 + c) * 16 + d)
  | _, _, _, _ => .error .invalidEscape

/-- Whether a number is the first half of a surrogate pair. -/
def isLeading (n : Nat) : Bool :=
  0xD800 ≤ n && n ≤ 0xDBFF

/-- Whether a number is the second half of a surrogate pair. -/
def isTrailing (n : Nat) : Bool :=
  0xDC00 ≤ n && n ≤ 0xDFFF

/-- The bytes of a character, the last one first. -/
def bytesReversed (codePoint : Nat) : List UInt8 :=
  (String.singleton (Char.ofNat codePoint)).toUTF8.toList.reverse

/-- The byte that an escape with one letter stands for. -/
def escapedByte? (letter : UInt8) : Option UInt8 :=
  if letter = 0x22 || letter = 0x5C || letter = 0x2F then some letter
  else if letter = 0x62 then some 0x08
  else if letter = 0x66 then some 0x0C
  else if letter = 0x6E then some 0x0A
  else if letter = 0x72 then some 0x0D
  else if letter = 0x74 then some 0x09
  else none

/-- The bytes of a text after its opening quote, in reverse after those in `reversed`, and what
follows the closing quote. -/
def textBytes (reversed : List UInt8) : List UInt8 → Except Fault (List UInt8 × List UInt8)
  | [] => .error (.endOf .string)
  | byte :: rest =>
    if byte = 0x22 then .ok (reversed, rest)
    else if byte < 0x20 then .error .controlCharacter
    else if byte ≠ 0x5C then textBytes (byte :: reversed) rest
    else match rest with
    | [] => .error (.endOf .string)
    | letter :: rest =>
      if letter ≠ 0x75 then
        match escapedByte? letter with
        | some byte => textBytes (byte :: reversed) rest
        | none => .error .invalidEscape
      else match rest with
      | a :: b :: c :: d :: rest =>
        match hexQuad a b c d with
        | .error fault => .error fault
        | .ok first =>
          if isTrailing first then .error .loneSurrogate
          else if !isLeading first then textBytes (bytesReversed first ++ reversed) rest
          else match rest with
          | [] => .error (.endOf .string)
          | backslash :: rest =>
            if backslash ≠ 0x5C then .error .brokenSurrogatePair
            else match rest with
            | [] => .error (.endOf .string)
            | letter :: rest =>
              if letter ≠ 0x75 then .error .brokenSurrogatePair
              else match rest with
              | a :: b :: c :: d :: rest =>
                match hexQuad a b c d with
                | .error fault => .error fault
                | .ok second =>
                  if isTrailing second then
                    let codePoint := 0x10000 + (first - 0xD800) * 0x400 + (second - 0xDC00)
                    textBytes (bytesReversed codePoint ++ reversed) rest
                  else .error .loneSurrogate
              | _ => .error (.endOf .string)
      | _ => .error (.endOf .string)

/-- What follows the closing quote of a text that nobody asked for: escapes have to be well formed,
but halves of surrogate pairs and bytes that are not UTF-8 are let through. -/
def afterText : List UInt8 → Except Fault (List UInt8)
  | [] => .error (.endOf .string)
  | byte :: rest =>
    if byte = 0x22 then .ok rest
    else if byte < 0x20 then .error .controlCharacter
    else if byte ≠ 0x5C then afterText rest
    else match rest with
    | [] => .error (.endOf .string)
    | letter :: rest =>
      if letter ≠ 0x75 then
        if (escapedByte? letter).isSome then afterText rest else .error .invalidEscape
      else match rest with
      | a :: b :: c :: d :: rest =>
        match hexQuad a b c d with
        | .error fault => .error fault
        | .ok _ => afterText rest
      | _ => .error (.endOf .string)

namespace Reader

/-- A text after its opening quote. -/
def text : Reader String := do
  match textBytes [] (← get) with
  | .error fault => throw fault
  | .ok (reversed, rest) =>
    set rest
    match String.fromUTF8? ⟨reversed.reverse.toArray⟩ with
    | some text => return text
    | none => throw .invalidCodePoint

/-- Passes over a text after its opening quote. -/
def skipText : Reader Unit := do
  match afterText (← get) with
  | .error fault => throw fault
  | .ok rest => set rest

end Reader

end DalvikRules.Json
