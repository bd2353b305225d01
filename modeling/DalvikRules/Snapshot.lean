import DalvikRules.Json.Record
import DalvikRules.Program

/-!
# Snapshots

A snapshot is the document of a disassembled application: the permissions it was granted and its
methods with their instructions. Most fields may be left out. A method without a class or a name is
not taken over, and an instruction without an offset stands at its position in the body.
-/

namespace DalvikRules

/-- An instruction as a snapshot lists it. -/
structure InstructionRecord where
  offset : Option Nat := none
  mnemonic : String := ""
  registers : List String := []
  parameter : Option String := none
deriving DecidableEq, Repr, Inhabited

/-- A method as a snapshot lists it. -/
structure MethodRecord where
  className : String := ""
  name : String := ""
  descriptor : String := ""
  instructions : List InstructionRecord := []
deriving DecidableEq, Repr, Inhabited

/-- The content of a snapshot. -/
structure Snapshot where
  permissions : List String := []
  methods : List MethodRecord := []
deriving DecidableEq, Repr, Inhabited

namespace InstructionRecord

/-- How an instruction is written. -/
def shape : Json.Shape InstructionRecord where
  name := "struct InstructionDocument"
  fields := [
    ⟨"offset", false, fun r => return { r with offset := ← Json.Reader.optional .word32 }⟩,
    ⟨"mnemonic", true, fun r => return { r with mnemonic := ← Json.Reader.string }⟩,
    ⟨"registers", false, fun r => return { r with registers := ← Json.Reader.list .string }⟩,
    ⟨"parameter", false, fun r => return { r with parameter := ← Json.Reader.optional .string }⟩]
  initial := {}

/-- The instruction at the given position of a body. -/
def instruction (written : InstructionRecord) (position : Nat) : Instruction where
  offset := written.offset.getD position
  mnemonic := written.mnemonic
  registers := written.registers.map Register.mk
  parameter := written.parameter

end InstructionRecord

namespace MethodRecord

/-- How a method is written. -/
def shape : Json.Shape MethodRecord where
  name := "struct MethodDocument"
  fields := [
    ⟨"class", true, fun r => return { r with className := ← Json.Reader.string }⟩,
    ⟨"name", true, fun r => return { r with name := ← Json.Reader.string }⟩,
    ⟨"descriptor", false, fun r => return { r with descriptor := ← Json.Reader.string }⟩,
    ⟨"instructions", false, fun r =>
      return { r with instructions := ← Json.Reader.list (.record InstructionRecord.shape) }⟩]
  initial := {}

/-- Whether a method has both a class and a name. -/
def isNamed (written : MethodRecord) : Bool :=
  !written.className.isEmpty && !written.name.isEmpty

/-- The body of a method. -/
def body (written : MethodRecord) : Body where
  method := ⟨written.className, written.name⟩
  descriptor := written.descriptor
  instructions := written.instructions.mapIdx fun position inst => inst.instruction position

end MethodRecord

namespace Snapshot

/-- How a snapshot is written. -/
def shape : Json.Shape Snapshot where
  name := "struct SnapshotDocument"
  fields := [
    ⟨"permissions", false, fun r => return { r with permissions := ← Json.Reader.list .string }⟩,
    ⟨"methods", false, fun r =>
      return { r with methods := ← Json.Reader.list (.record MethodRecord.shape) }⟩]
  initial := {}

/-- Reads a snapshot. -/
def parse (document : List UInt8) : Except Json.Fault Snapshot :=
  Json.Reader.run (do
    let snapshot ← Json.Reader.record shape
    Json.Reader.endOfDocument
    return snapshot) document

/-- The application that a snapshot describes. -/
def program (snapshot : Snapshot) : Program where
  permissions := .ofList snapshot.permissions
  bodies := (snapshot.methods.filter MethodRecord.isNamed).map MethodRecord.body

end Snapshot

end DalvikRules
