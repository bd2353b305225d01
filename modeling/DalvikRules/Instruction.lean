import DalvikRules.CallTarget
import DalvikRules.Text.Search

/-!
# Instructions and their effect on values

An instruction is kept as the disassembler wrote it. What it does to the values held in registers
is read off its mnemonic first and then off the shape of its operands; an instruction whose
operands do not have the shape its mnemonic asks for is treated like one of an unknown mnemonic.
-/

namespace DalvikRules

/-- A register operand such as `v4` or `p0`. -/
structure Register where
  name : String
deriving DecidableEq, Repr, Inhabited

/-- One decoded Dalvik instruction. -/
structure Instruction where
  offset : Nat
  mnemonic : String
  registers : List Register
  parameter : Option String
deriving DecidableEq, Repr, Inhabited

/-- What an instruction does to the values held in registers. -/
inductive Effect
  /-- A value that no earlier register held arrives in `dest`. -/
  | create (dest : Register) (origin : Option String)
  /-- `dest` takes the value held by `source`. -/
  | move (dest source : Register)
  /-- `dest` takes the result of the invocation directly before. -/
  | moveResult (dest : Register)
  /-- The values held by `arguments` are handed to `target`. -/
  | invoke (arguments : List Register) (target : CallTarget)
  /-- `dest` receives something that is not tracked. -/
  | overwrite (dest : Register)
  /-- No tracked register changes. -/
  | inert
deriving DecidableEq, Repr, Inhabited

/-- The operand shapes that mnemonics ask for. -/
inductive Family
  /-- Register arguments and a call target. -/
  | invoke
  /-- One destination, filled from a result. -/
  | moveResult
  /-- One destination, filled with a value of its own. -/
  | create
  /-- A destination and a source. -/
  | move
  /-- Anything else. -/
  | untracked
deriving DecidableEq, Repr

namespace Mnemonic

/-- The mnemonics that put a value of their own into their destination: a caught exception, an
allocation, a constant, or the content of a field or an array cell. -/
def createsValue (mnemonic : String) : Bool :=
  mnemonic == "move-exception" || mnemonic == "new-instance" || mnemonic == "new-array" ||
    ["const", "iget", "sget", "aget"].any (Text.startsWith mnemonic)

/-- The operand shape that a mnemonic asks for. -/
def family (mnemonic : String) : Family :=
  if Text.startsWith mnemonic "invoke-" then .invoke
  else if Text.startsWith mnemonic "move-result" then .moveResult
  else if createsValue mnemonic then .create
  else if Text.startsWith mnemonic "move" then .move
  else .untracked

/-- The beginnings of mnemonics that compute a plain number into their first register. -/
def computing : List String :=
  ["instance-of", "array-length", "cmp", "neg-", "not-", "add-", "sub-", "rsub-", "mul-", "div-",
    "rem-", "and-", "or-", "xor-", "shl-", "shr-", "ushr-"]

/-- Whether a mnemonic without a tracked effect still writes its first register: comparisons,
arithmetic and conversions such as `int-to-long`. -/
def overwrites (mnemonic : String) : Bool :=
  computing.any (Text.startsWith mnemonic) || Text.contains mnemonic "-to-"

end Mnemonic

namespace Instruction

/-- The effect of an instruction whose result is not tracked. -/
def untrackedEffect (inst : Instruction) : Effect :=
  match inst.registers with
  | [] => .inert
  | dest :: _ => if Mnemonic.overwrites inst.mnemonic then .overwrite dest else .inert

/-- The effect of an instruction. Operands that do not fit the mnemonic make it untracked. -/
def effect (inst : Instruction) : Effect :=
  match Mnemonic.family inst.mnemonic, inst.registers with
  | .invoke, arguments =>
    match inst.parameter.bind CallTarget.parse? with
    | some target => .invoke arguments target
    | none => inst.untrackedEffect
  | .moveResult, dest :: _ => .moveResult dest
  | .create, dest :: _ => .create dest inst.parameter
  | .move, dest :: source :: _ => .move dest source
  | _, _ => inst.untrackedEffect

/-- The method that an instruction calls, if it is an invocation. -/
def callTarget? (inst : Instruction) : Option CallTarget :=
  match inst.effect with
  | .invoke _ target => some target
  | _ => none

/-- The register that an untracked instruction writes, if it writes one. -/
def overwrittenRegister? (inst : Instruction) : Option Register :=
  match inst.effect with
  | .overwrite dest => some dest
  | _ => none

end Instruction

end DalvikRules
