import DalvikRules.Json.Printer
import DalvikRules.Text.Hidden

/-!
# What can be wrong with a document

A fault is a violation of the grammar of JSON, or a value that does not fit where it stands. A text
that is cited in a message stands between quotes; quotes and backslashes in it are escaped, and so
is every character that would not show.
-/

namespace DalvikRules.Json

/-- What was being read when the document ended. -/
inductive Construct
  | list
  | object
  | string
  | value
deriving DecidableEq, Repr

namespace Construct

/-- The construct with its article. -/
def phrase : Construct → String
  | list => "a list"
  | object => "an object"
  | string => "a string"
  | value => "a value"

end Construct

/-- A character as it stands inside a cited text. -/
def citeChar (c : Char) : String :=
  if c = '\x00' then "\\0"
  else if c = '\t' then "\\t"
  else if c = '\r' then "\\r"
  else if c = '\n' then "\\n"
  else if c = '"' then "\\\""
  else if c = '\\' then "\\\\"
  else if Text.isHidden c then "\\u\x7b" ++ String.ofList (Nat.toDigits 16 c.toNat) ++ "\x7d"
  else String.singleton c

/-- A text as it is cited in a message. -/
def cite (text : String) : String :=
  "\"" ++ String.join (text.toList.map citeChar) ++ "\""

/-- The sort of a value that was met, as far as messages tell. -/
inductive Seen
  | null
  | bool (b : Bool)
  | number (n : Number)
  | string (s : String)
  | sequence
  | map
deriving Repr

namespace Seen

/-- What is met when a value is looked at. -/
def ofValue : Value → Seen
  | .null => .null
  | .bool b => .bool b
  | .number n => .number n
  | .string s => .string s
  | .array _ => .sequence
  | .object _ => .map

/-- What was met, in words. -/
def phrase : Seen → String
  | null => "null"
  | bool true => "boolean `true`"
  | bool false => "boolean `false`"
  | number (.integer n) => "integer `" ++ toString n ++ "`"
  | number (.real x) => "floating point `" ++ (Number.real x).text ++ "`"
  | string s => "string " ++ cite s
  | sequence => "sequence"
  | map => "map"

end Seen

/-- A fault of a document. -/
inductive Fault
  | endOf (construct : Construct)
  | expectedColon
  | expectedListSeparator
  | expectedObjectSeparator
  | expectedIdent
  | expectedValue
  | invalidEscape
  | invalidNumber
  | numberOutOfRange
  | invalidCodePoint
  | controlCharacter
  | keyMustBeString
  | loneSurrogate
  | brokenSurrogatePair
  | trailingComma
  | trailingCharacters
  | nestedTooDeeply
  | missingField (name : String)
  | duplicateField (name : String)
  | wrongType (seen : Seen) (expected : String)
  | wrongValue (seen : Seen) (expected : String)
  | wrongLength (length : Nat) (expected : String)
deriving Repr

namespace Fault

/-- The wording of a fault. -/
def message : Fault → String
  | endOf construct => "EOF while parsing " ++ construct.phrase
  | expectedColon => "expected `:`"
  | expectedListSeparator => "expected `,` or `]`"
  | expectedObjectSeparator => "expected `,` or `\x7d`"
  | expectedIdent => "expected ident"
  | expectedValue => "expected value"
  | invalidEscape => "invalid escape"
  | invalidNumber => "invalid number"
  | numberOutOfRange => "number out of range"
  | invalidCodePoint => "invalid unicode code point"
  | controlCharacter =>
    "control character (\\u0000-\\u001F) found while parsing a string"
  | keyMustBeString => "key must be a string"
  | loneSurrogate => "lone leading surrogate in hex escape"
  | brokenSurrogatePair => "unexpected end of hex escape"
  | trailingComma => "trailing comma"
  | trailingCharacters => "trailing characters"
  | nestedTooDeeply => "recursion limit exceeded"
  | missingField name => "missing field `" ++ name ++ "`"
  | duplicateField name => "duplicate field `" ++ name ++ "`"
  | wrongType seen expected => "invalid type: " ++ seen.phrase ++ ", expected " ++ expected
  | wrongValue seen expected => "invalid value: " ++ seen.phrase ++ ", expected " ++ expected
  | wrongLength length expected =>
    "invalid length " ++ toString length ++ ", expected " ++ expected

end Fault

end DalvikRules.Json
