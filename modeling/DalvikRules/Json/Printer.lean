import DalvikRules.Decimal.Style
import DalvikRules.Json.Value

/-!
# Writing JSON

A value is written on one line without spaces, or over several lines with an indentation of two
spaces. Of the characters of a text only the quote, the backslash and the controls are escaped.
-/

namespace DalvikRules.Json

/-- A digit of a lower-case hexadecimal number. -/
def hexDigit (n : Nat) : Char :=
  Nat.digitChar n

/-- A character as it stands inside a quoted text. -/
def escape (c : Char) : String :=
  if c = '"' then "\\\""
  else if c = '\\' then "\\\\"
  else if c = '\x08' then "\\b"
  else if c = '\x0c' then "\\f"
  else if c = '\n' then "\\n"
  else if c = '\r' then "\\r"
  else if c = '\t' then "\\t"
  else if c.toNat < 0x20 then
    "\\u00" ++ String.ofList [hexDigit (c.toNat / 16), hexDigit (c.toNat % 16)]
  else String.singleton c

/-- A text between quotes. -/
def quote (text : String) : String :=
  "\"" ++ String.join (text.toList.map escape) ++ "\""

/-- A number; a double is written so that it reads back. -/
def Number.text : Number → String
  | .integer n => toString n
  | .real x => Decimal.Style.document.write x

mutual

/-- A value on one line. -/
def Value.compact : Value → String
  | .null => "null"
  | .bool true => "true"
  | .bool false => "false"
  | .number n => n.text
  | .string s => quote s
  | .array items => "[" ++ String.intercalate "," (compactItems items) ++ "]"
  | .object members => "\x7b" ++ String.intercalate "," (compactMembers members) ++ "\x7d"

/-- The items of an array on one line. -/
def compactItems : List Value → List String
  | [] => []
  | item :: rest => item.compact :: compactItems rest

/-- The members of an object on one line. -/
def compactMembers : List (String × Value) → List String
  | [] => []
  | (name, value) :: rest => (quote name ++ ":" ++ value.compact) :: compactMembers rest

end

/-- The start of a line that is indented `depth` times. -/
def newLine (depth : Nat) : String :=
  "\n" ++ String.ofList (List.replicate (2 * depth) ' ')

/-- Lines between two brackets; nothing stands between them if there are no lines. -/
def bracketed (depth : Nat) (left right : String) (lines : List String) : String :=
  if lines.isEmpty then left ++ right
  else left ++ newLine (depth + 1) ++ String.intercalate ("," ++ newLine (depth + 1)) lines ++
    newLine depth ++ right

mutual

/-- A value over several lines, of which the first is indented `depth` times. -/
def Value.pretty (depth : Nat) : Value → String
  | .null => "null"
  | .bool true => "true"
  | .bool false => "false"
  | .number n => n.text
  | .string s => quote s
  | .array items => bracketed depth "[" "]" (prettyItems (depth + 1) items)
  | .object members => bracketed depth "\x7b" "\x7d" (prettyMembers (depth + 1) members)

/-- The items of an array, each over several lines. -/
def prettyItems (depth : Nat) : List Value → List String
  | [] => []
  | item :: rest => item.pretty depth :: prettyItems depth rest

/-- The members of an object, each over several lines. -/
def prettyMembers (depth : Nat) : List (String × Value) → List String
  | [] => []
  | (name, value) :: rest =>
    (quote name ++ ": " ++ value.pretty depth) :: prettyMembers depth rest

end

end DalvikRules.Json
