import DalvikRules.Board
import DalvikRules.Decimal.Style
import DalvikRules.Json.Value

/-!
# The result of a run in SARIF

The static analysis results interchange format lists one result per rule that passed a level. A
result says in one sentence how far the rule got, and its locations are the methods that call both
steps of the rule in order.
-/

namespace DalvikRules.Sarif

open Json

/-- The tool that the results are attributed to. -/
def toolName : String := "dexsieve"

/-- The version of the format. -/
def version : String := "2.1.0"

/-- Where the schema of the format is found. -/
def schemaAddress : String :=
  "https://schemastore.azurewebsites.net/schemas/json/sarif-2.1.0.json"

/-- How the tool was called. -/
structure Invocation where
  arguments : List String
  commandLine : Option String := none
deriving DecidableEq, Repr, Inhabited

/-- The result for one rule. -/
structure Result where
  message : String
  locations : List String
deriving DecidableEq, Repr, Inhabited

/-- How far a rule got, in one sentence. -/
def message (report : Report) : String :=
  report.rule ++ ": confidence " ++ toString report.confidence ++ "%, score " ++
    toString report.score ++ ", weight " ++ Decimal.Style.plain.write report.weight ++ " (" ++
    String.intercalate ", " (report.checklist.passedLevels.map Level.title) ++ ")"

/-- The result for one report. -/
def Result.ofReport (report : Report) : Result where
  message := Sarif.message report
  locations := report.sequenceCallers.map MethodRef.text

/-- The results of a board: one for each report of a rule that passed a level. -/
def results (board : Board) : List Result :=
  (board.reports.toList.filter fun report => 0 < report.confidence).map Result.ofReport

/-- A place in the program, named by a method. -/
def location (name : String) : Value :=
  .object [("logicalLocations",
    .array [.object [("kind", .string "function"), ("name", .string name)]])]

/-- A result as an object. -/
def Result.document (result : Result) : Value :=
  .object [
    ("locations", .array (result.locations.map location)),
    ("message", .object [("text", .string result.message)])]

/-- How the tool was called, as an object. -/
def Invocation.document (invocation : Invocation) : Value :=
  .object (
    [("arguments", .array (invocation.arguments.map .string))] ++
    (invocation.commandLine.toList.map fun line => ("commandLine", .string line)) ++
    [("executionSuccessful", .bool true)])

/-- The results of a board as a document. -/
def document (board : Board) (invocation : Invocation) : Value :=
  .object [
    ("$schema", .string schemaAddress),
    ("runs", .array [.object [
      ("invocations", .array [invocation.document]),
      ("results", .array ((results board).map Result.document)),
      ("tool", .object [("driver", .object [("name", .string toolName)])])]]),
    ("version", .string version)]

end DalvikRules.Sarif
