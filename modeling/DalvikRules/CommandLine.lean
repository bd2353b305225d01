import DalvikRules.Assessment
import DalvikRules.Json.Value

/-!
# The command line

Options are written `--name value` or `--name=value`, flags `--name`, and a few flags have a letter
as well; letters may be put together. Arguments are raw texts, of which only a number has to be a
text: a path may be any bytes, and everything else is one of a few words. Arguments are read from
left to right. The value of an option is looked at when the next option or flag arrives, or at the
end; an argument that is no option at all, or a value given to a flag, is refused before that.
Required options are missed at the end.
-/

namespace DalvikRules.CommandLine

/-- The documents that a run can write. -/
inductive Format
  | sarif
  | json
deriving DecidableEq, Repr, Inhabited

/-- What a run is asked for. -/
structure Options where
  input : Path
  rules : Path
  output : Option Path := none
  format : Format := .sarif
  config : Config := {}
  parallel : Bool := false
  quiet : Bool := false
  timing : Bool := false
  verbose : Bool := false
deriving DecidableEq, Repr, Inhabited

/-- Why there is no run: the arguments are refused, or they ask for a text about the program. -/
inductive Usage
  | missingRequiredArgument
  | invalidValue
  | valueValidation
  | unknownArgument
  | argumentConflict
  | tooManyValues
  | invalidUtf8
  | displayHelp
  | displayVersion
deriving DecidableEq, Repr, Inhabited

/-- Asking for a text is no mistake. -/
def Usage.exitCode : Usage → Nat
  | .displayHelp | .displayVersion => 0
  | _ => 2

/-- An option with a value. -/
inductive Setting
  | input
  | rules
  | output
  | format
  | maxDepth
  | sequence
deriving DecidableEq, Repr, Inhabited

/-- An option without a value. -/
inductive Switch
  | parallel
  | quiet
  | timing
  | verbose
  | help
  | version
deriving DecidableEq, Repr, Inhabited

/-- What a name after two dashes stands for. -/
inductive Argument
  | setting (setting : Setting)
  | switch (switch : Switch)
deriving DecidableEq, Repr, Inhabited

/-- The names of all arguments. -/
def arguments : List (String × Argument) := [
  ("input", .setting .input),
  ("rules", .setting .rules),
  ("output", .setting .output),
  ("format", .setting .format),
  ("max-depth", .setting .maxDepth),
  ("sequence", .setting .sequence),
  ("parallel", .switch .parallel),
  ("quiet", .switch .quiet),
  ("timing", .switch .timing),
  ("verbose", .switch .verbose),
  ("help", .switch .help),
  ("version", .switch .version)]

/-- What the name in an argument stands for. -/
def argument? (name : RawText) : Option Argument :=
  (arguments.find? fun entry => RawText.ofString entry.1 = name).map Prod.snd

/-- The letters of the flags that have one. -/
def letters : List (Char × Switch) :=
  [('v', .verbose), ('h', .help), ('V', .version)]

/-- What a letter in an argument stands for. All letters are of ASCII, so a byte decides. -/
def switch? (letter : UInt8) : Option Switch :=
  (letters.find? fun entry => entry.1.toNat = letter.toNat).map Prod.snd

/-- What was given so far. -/
structure Draft where
  input : Option Path := none
  rules : Option Path := none
  output : Option Path := none
  format : Option Format := none
  maxDepth : Option Nat := none
  sequence : Option SequenceMode := none
  switches : List Switch := []
deriving DecidableEq, Repr, Inhabited

/-- A path, which must not be empty. -/
def path (value : RawText) : Except Usage Path :=
  if value.isEmpty then .error .invalidValue else .ok ⟨value⟩

/-- The name of a document format. -/
def format (value : RawText) : Except Usage Format :=
  if value = RawText.ofString "sarif" then .ok .sarif
  else if value = RawText.ofString "json" then .ok .json
  else .error .invalidValue

/-- The name of a reading of call order. -/
def sequence (value : RawText) : Except Usage SequenceMode :=
  if value = RawText.ofString "loose" then .ok .loose
  else if value = RawText.ofString "strict" then .ok .strict
  else .error .invalidValue

/-- A positive number of 64 bits in decimal digits, with a plus sign or without. -/
def depth (value : RawText) : Except Usage Nat :=
  match value.toString? with
  | none => .error .invalidUtf8
  | some text =>
    let digits := match text.toList with
      | '+' :: digits => digits
      | digits => digits
    let number := digits.foldl (fun n digit => n * 10 + (digit.toNat - '0'.toNat)) 0
    if !digits.isEmpty && digits.all Char.isDigit && 1 ≤ number && number < word64Limit then
      .ok number
    else .error .valueValidation

namespace Draft

/-- Gives a setting its value; a setting has one value only. -/
def set (draft : Draft) (setting : Setting) (value : RawText) : Except Usage Draft :=
  let once := fun given : Bool =>
    if given then (.error .argumentConflict : Except Usage Unit) else .ok ()
  match setting with
  | .input => do
    once draft.input.isSome
    return { draft with input := some (← path value) }
  | .rules => do
    once draft.rules.isSome
    return { draft with rules := some (← path value) }
  | .output => do
    once draft.output.isSome
    return { draft with output := some (← path value) }
  | .format => do
    once draft.format.isSome
    return { draft with format := some (← CommandLine.format value) }
  | .maxDepth => do
    once draft.maxDepth.isSome
    return { draft with maxDepth := some (← depth value) }
  | .sequence => do
    once draft.sequence.isSome
    return { draft with sequence := some (← CommandLine.sequence value) }

/-- Turns a flag on. A flag that asks for a text ends the reading. -/
def turnOn (draft : Draft) (switch : Switch) : Except Usage Draft :=
  match switch with
  | .help => .error .displayHelp
  | .version => .error .displayVersion
  | switch =>
    if switch ∈ draft.switches then .error .argumentConflict
    else .ok { draft with switches := switch :: draft.switches }

/-- The options of a complete draft. -/
def options (draft : Draft) : Except Usage Options :=
  match draft.input, draft.rules with
  | some input, some rules =>
    let default : Config := {}
    .ok {
      input
      rules
      output := draft.output
      format := draft.format.getD .sarif
      config := ⟨draft.maxDepth.getD default.maxDepth, draft.sequence.getD default.mode⟩
      parallel := .parallel ∈ draft.switches
      quiet := .quiet ∈ draft.switches
      timing := .timing ∈ draft.switches
      verbose := .verbose ∈ draft.switches }
  | _, _ => .error .missingRequiredArgument

end Draft

/-- What is known between two arguments. -/
structure Reading where
  draft : Draft := {}
  /-- The last setting, with its value if that was given already. -/
  last : Option (Setting × Option RawText) := none
  /-- Whether two dashes have ended the options. -/
  ended : Bool := false
deriving DecidableEq, Repr, Inhabited

namespace Reading

/-- The byte between a name and a value in the same argument. -/
def equalsSign : UInt8 := 0x3D

/-- Looks at the value of the last setting. -/
def settle (reading : Reading) : Except Usage Reading :=
  match reading.last with
  | none => .ok reading
  | some (_, none) => .error .invalidValue
  | some (setting, some value) => do
    return { reading with draft := ← reading.draft.set setting value, last := none }

/-- Reads a flag. -/
def turnOn (reading : Reading) (switch : Switch) : Except Usage Reading := do
  let reading ← reading.settle
  return { reading with draft := ← reading.draft.turnOn switch }

/-- Reads a setting, with its value if that stands in the same argument. -/
def setting (reading : Reading) (setting : Setting) (value : Option RawText) :
    Except Usage Reading := do
  let reading ← reading.settle
  match value with
  | none => return { reading with last := some (setting, none) }
  | some value => return { reading with draft := ← reading.draft.set setting value }

/-- Reads what stands after two dashes. A name is as long as there is no equals sign. -/
def named (reading : Reading) (text : RawText) : Except Usage Reading :=
  let value := match text.dropWhile (· ≠ equalsSign) with
    | [] => none
    | _ :: value => some value
  match argument? (text.takeWhile (· ≠ equalsSign)), value with
  | none, _ => .error .unknownArgument
  | some (.setting setting), value => reading.setting setting value
  | some (.switch switch), none => reading.turnOn switch
  | some (.switch _), some _ => .error .tooManyValues

/-- Reads the letters after one dash. -/
def lettered (reading : Reading) (text : RawText) : Except Usage Reading :=
  text.foldlM (fun reading letter =>
    match switch? letter with
    | some switch => reading.turnOn switch
    | none => .error .unknownArgument) reading

/-- Reads an argument that is no option: the value that the last setting waits for. -/
def plain (reading : Reading) (argument : RawText) : Except Usage Reading :=
  match reading.last with
  | some (setting, none) => .ok { reading with last := some (setting, some argument) }
  | _ => .error .unknownArgument

/-- Reads one argument. -/
def step (reading : Reading) (argument : RawText) : Except Usage Reading :=
  if reading.ended then .error .unknownArgument
  else match argument with
    | 0x2D :: 0x2D :: [] => .ok { reading with ended := true }
    | 0x2D :: 0x2D :: text => reading.named text
    | 0x2D :: letter :: text => reading.lettered (letter :: text)
    | _ => reading.plain argument

end Reading

/-- Reads the arguments of a run. -/
def parse (arguments : List RawText) : Except Usage Options := do
  let reading ← arguments.foldlM Reading.step {}
  (← reading.settle).draft.options

end DalvikRules.CommandLine
