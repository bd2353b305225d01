import DalvikRules.CommandLine
import DalvikRules.Document.Sarif
import DalvikRules.Document.Summary
import DalvikRules.Loading

/-!
# A run of the program

A run reads its arguments, loads a snapshot and rules, grades the rules, opens what it writes to and
writes one document. Everything that can fail comes before the output is opened, so a run that fails
leaves no trace apart from its message. Only then the document is put together, and one of its parts
is how the program was called: this has to be a text, and a run that breaks off there has opened its
output already.
-/

namespace DalvikRules

/-- Why a run fails after its arguments were read. -/
inductive RunError
  | inputNotFound (path : Path)
  | rulesNotFound (path : Path)
  | loading (error : LoadError)
  | searching (error : SearchError)
  | unwritable (path : Path) (failure : Storage.Failure)
deriving Repr

namespace RunError

/-- What could not be done. -/
def summary : RunError → String
  | inputNotFound path => "input not found: " ++ path.shown
  | rulesNotFound path => "rules not found: " ++ path.shown
  | loading error => error.summary
  | searching error => error.message
  | unwritable path _ => "failed to open " ++ path.shown

/-- Why it could not be done, where the summary does not say it. -/
def cause? : RunError → Option String
  | inputNotFound _ | rulesNotFound _ | searching _ => none
  | loading error => error.cause?
  | unwritable _ failure => some failure.message

/-- The lines in which a failure is told. The cause stands below the summary, further to the
right. -/
def lines (error : RunError) : List String :=
  Text.lines ("Error: " ++ error.summary) ++
    match error.cause? with
    | none => []
    | some cause => "" :: "Caused by:" :: (Text.lines cause).map ("    " ++ ·)

end RunError

/-- How a run ends. -/
inductive Outcome
  /-- The arguments are refused, or ask for a text about the program. -/
  | unstarted (usage : CommandLine.Usage)
  /-- The run fails. -/
  | failure (error : RunError)
  /-- The run breaks off: an argument is no text. -/
  | crash
  /-- The run succeeds. The notes are told beside the document. -/
  | success (notes : List String)
deriving Repr

namespace Outcome

/-- The exit code of the program. -/
def exitCode : Outcome → Nat
  | unstarted usage => usage.exitCode
  | failure _ => 1
  | crash => 101
  | success _ => 0

/-- The lines that a run writes to standard error, texts about the program and about a crash
apart. -/
def notes : Outcome → List String
  | unstarted _ | crash => []
  | failure error => error.lines
  | success notes => notes

end Outcome

namespace CommandLine.Options

/-- The path that stands for standard output. -/
def standardOutput : Path := ⟨RawText.ofString "-"⟩

/-- Whether the document goes to a file, and to which one. -/
def outputFile (options : Options) : Option Path :=
  options.output.filter (!·.sameAs standardOutput)

/-- How the program was called, word by word, if that can be written down: every word has to be a
text. -/
def invocation? (call : List RawText) : Option Sarif.Invocation := do
  let words ← call.mapM RawText.toString?
  return ⟨words, some (String.intercalate " " words)⟩

/-- The document that a run writes, which is one value and a line end, if it can be put together. -/
def document? (options : Options) (call : List RawText) (board : Board) : Option String := do
  let value ← match options.format with
    | .sarif => (invocation? call).map (Sarif.document board)
    | .json => some (board.summary options.config)
  return value.pretty 0 ++ "\n"

/-- What a run tells beside its document: the grade, and on demand how much there was to do. -/
def notes (options : Options) (program : Program) (board : Board) (elapsed : Nat) :
    List String :=
  let totals := board.totals
  let rules := toString board.reports.size
  let grade := board.risk.text ++ ": total_score=" ++ toString totals.score ++ " total_weight=" ++
    Decimal.Style.plain.write totals.weight ++ " rules=" ++ rules
  let timing := "timing: total_ms=" ++ toString elapsed ++ " methods=" ++
    toString program.bodies.length ++ " instructions=" ++ toString program.instructionCount ++
    " rules=" ++ rules
  if options.quiet then [] else if options.timing then [grade, timing] else [grade]

end CommandLine.Options

section

variable {m : Type → Type} [Monad m] [Storage m]

/-- Everything that a run does before it writes: the program and the board of its rules. -/
def prepare (options : CommandLine.Options) : ExceptT RunError m (Program × Board) := do
  if (← Storage.kind? (m := m) options.input).isNone then throw (.inputNotFound options.input)
  if (← Storage.kind? (m := m) options.rules).isNone then throw (.rulesNotFound options.rules)
  let snapshot ← (loadSnapshot options.input).adapt .loading
  let rules ← (loadRules options.rules).adapt .loading
  let program := snapshot.program
  match assessRules program options.config options.parallel rules with
  | .ok board => return (program, board)
  | .error error => throw (.searching error)

/-- Opens what a run writes its document to. -/
def openOutput (options : CommandLine.Options) : ExceptT RunError m (String → m Unit) := do
  match options.outputFile with
  | none => return Storage.print
  | some path =>
    match ← Storage.create (m := m) path with
    | .ok write => return write
    | .error failure => throw (.unwritable path failure)

/-- Runs the program. The first word of the call is the name that the program was called by. -/
def run (call : List RawText) : m Outcome := do
  match CommandLine.parse call.tail with
  | .error usage => return .unstarted usage
  | .ok options =>
    let opened ← ExceptT.run do
      let (program, board) ← prepare (m := m) options
      return (program, board, ← openOutput (m := m) options)
    match opened with
    | .error error => return .failure error
    | .ok (program, board, write) =>
      match options.document? call board with
      | none => return .crash
      | some document =>
        write document
        return .success (options.notes program board (← Storage.elapsed (m := m)))

end

end DalvikRules
