import DalvikRules.Json.Fault

/-!
# Reading bytes

A reader takes bytes from the front of what is left of a document. It knows how many bytes the
whole document has: no loop of a reader makes more rounds than that, because each round takes at
least one byte.
-/

namespace DalvikRules.Json

/-- A computation that takes bytes from the front of a document of known length. -/
abbrev Reader := ReaderT Nat (StateT (List UInt8) (Except Fault))

namespace Reader

/-- Reads a whole document. -/
def run {α : Type} (reader : Reader α) (document : List UInt8) : Except Fault α :=
  (reader document.length document).map Prod.fst

/-- The next byte, which is left where it is. -/
def peek : Reader (Option UInt8) := do
  return (← get).head?

/-- Takes one byte. -/
def skip : Reader Unit :=
  modify List.tail

/-- Takes the next byte. -/
def next : Reader (Option UInt8) := do
  let byte ← peek
  skip
  return byte

/-- Repeats a step until it yields a result. The rounds are bounded by the length of the document,
which no loop that takes a byte in every round exceeds. -/
def loop {σ α : Type} (step : σ → Reader (σ ⊕ α)) (start : σ) : Reader α := do
  go ((← read) + 1) start
where
  go : Nat → σ → Reader α
  | 0, _ => throw .expectedValue
  | rounds + 1, state => do
    match ← step state with
    | .inl state => go rounds state
    | .inr result => return result

end Reader

/-- Whether a byte is a space, a tab or a line end. -/
def isSpace (byte : UInt8) : Bool :=
  byte == 0x20 || byte == 0x09 || byte == 0x0A || byte == 0x0D

/-- Whether a byte is a decimal digit. -/
def isDigit (byte : UInt8) : Bool :=
  0x30 ≤ byte && byte ≤ 0x39

/-- The number of a decimal digit. -/
def digitValue (byte : UInt8) : Nat :=
  byte.toNat - 0x30

namespace Reader

/-- The next byte after white space, which is left where it is. -/
def peekToken : Reader (Option UInt8) := do
  modify (List.dropWhile isSpace)
  peek

/-- Takes all digits that follow. -/
def digits : Reader (List UInt8) := do
  let rest ← get
  set (rest.dropWhile isDigit)
  return rest.takeWhile isDigit

/-- Takes the given bytes, of which the first was taken already. -/
def ident : List UInt8 → Reader Unit
  | [] => return
  | byte :: rest => do
    match ← next with
    | none => throw (.endOf .value)
    | some other => if other = byte then ident rest else throw .expectedIdent

end Reader

end DalvikRules.Json
