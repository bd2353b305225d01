import DalvikRules.Run

/-!
# The program

The outer layer: the files and the clock of the machine, and the standard streams.
-/

namespace DalvikRules

/-- Runs on the files of the machine. The clock shows when the run began. -/
abbrev Machine := ReaderT Nat IO

namespace Machine

open Storage

/-- Runs an operation on a file and keeps the reason of its failure. -/
def attempt {α : Type} (operation : IO α) : IO (Except Failure α) := do
  match ← operation.toBaseIO with
  | .ok result => return .ok result
  | .error (.noFileOrDirectory ..) => return .error .notFound
  | .error (.inappropriateType _ 20 _) => return .error .notADirectory
  | .error (.inappropriateType _ 21 _) => return .error .isADirectory
  | .error (.invalidArgument _ 36 _) => return .error .nameTooLong
  | .error error => return .error (.other error.toString)

/-- Uses a path of the machine, which has to be a text for the operations that there are. -/
def onPath {α : Type} (path : Path) (operation : String → IO α) : IO (Except Failure α) := do
  match path.text.toString? with
  | some text => attempt (operation text)
  | none => return .error (.other "the path is no text")

/-- What a path of the machine leads to. -/
def kindAt? (path : Path) : IO (Option Kind) := do
  match ← onPath path fun text => (System.mkFilePath [text]).metadata with
  | .ok metadata => return some (if metadata.type == .dir then .directory else .file)
  | .error _ => return none

/-- Everything below a directory of the machine. -/
partial def entriesBelow (directory : Path) : IO (List (RawText × Listing)) := do
  match ← onPath directory fun text => (System.mkFilePath [text]).readDir with
  | .error failure => throw (IO.userError failure.message)
  | .ok entries =>
    entries.toList.mapM fun entry => do
      let name := RawText.ofString entry.fileName
      let path := directory.join name
      if (← kindAt? path) == some .directory then return (name, .directory (← entriesBelow path))
      else return (name, .file)

/-- Opens a file of the machine for writing. -/
def openAt (path : Path) : IO (Except Failure (String → Machine Unit)) := do
  match ← onPath path fun text => IO.FS.Handle.mk text .write with
  | .ok handle => return .ok fun text => handle.putStr text
  | .error failure => return .error failure

instance : Storage Machine where
  kind? path := kindAt? path
  read path := onPath path fun text => IO.FS.readBinFile text
  entries path := entriesBelow path
  create path := openAt path
  print text := IO.print text
  elapsed := do
    let start ← read
    return (← IO.monoMsNow) - start

/-- How the program was called, word by word. The machine keeps the words as they are; where it does
not show them, they are taken from the texts that have been made of them. -/
def call (arguments : List String) : IO (List RawText) := do
  match ← attempt (IO.FS.readBinFile "/proc/self/cmdline") with
  | .ok words => return (Text.piecesBetween 0 words.toList).dropLast
  | .error _ => return ((← IO.appPath).toString :: arguments).map RawText.ofString

end Machine

namespace CommandLine.Usage

/-- What is said when there is no run. -/
def text : CommandLine.Usage → String
  | .displayVersion => Sarif.toolName
  | .displayHelp => help
  | _ => "error: the arguments are not valid\n\n" ++ help
where
  help : String :=
    "Usage: " ++ Sarif.toolName ++ " --input <PATH> --rules <PATH> [--output <PATH>] " ++
      "[--format sarif|json] [--max-depth <N>] [--sequence loose|strict] [--parallel] [--quiet] " ++
      "[--timing] [--verbose] [--help] [--version]"

end CommandLine.Usage

end DalvikRules

open DalvikRules in
/-- Runs the program and reports how it ended. -/
def main (arguments : List String) : IO UInt32 := do
  let outcome ← (run (m := Machine) (← Machine.call arguments)).run (← IO.monoMsNow)
  match outcome with
  | .unstarted usage =>
    if usage.exitCode = 0 then IO.println usage.text else IO.eprintln usage.text
  | .crash => IO.eprintln "an argument is no text"
  | outcome => outcome.notes.forM IO.eprintln
  return UInt32.ofNat outcome.exitCode
