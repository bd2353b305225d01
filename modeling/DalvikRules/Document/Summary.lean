import DalvikRules.Board
import DalvikRules.Json.Value

/-!
# The summary of a run

The complete result of a run as one JSON document: what was asked for, every report with its
evidence, and the totals with their grade.
-/

namespace DalvikRules

open Json

/-- The name of a reading of call order. -/
def SequenceMode.name : SequenceMode → String
  | .loose => "loose"
  | .strict => "strict"

/-- A method as an object. -/
def MethodRef.document (method : MethodRef) : Value :=
  .object [("class", .string method.className), ("method", .string method.name)]

/-- A common caller with the steps it takes. -/
def Finding.document (finding : Finding) : Value :=
  .object [
    ("caller", finding.caller.document),
    ("first", finding.first.document),
    ("second", finding.second.document)]

/-- The outcome of one rule. -/
def Report.document (report : Report) : Value :=
  .object [
    ("rule", .string report.rule),
    ("checklist", .array (Level.all.map fun level => .bool (report.checklist.passed level))),
    ("confidence", .ofNat report.confidence),
    ("score", .ofNat report.score),
    ("weight", .number (.real report.weight)),
    ("sequence_callers", .array (report.sequenceCallers.map MethodRef.document)),
    ("parameter_callers", .array (report.parameterCallers.map MethodRef.document)),
    ("call_pairs", .array (report.findings.map Finding.document))]

/-- What was asked for. -/
def Config.document (config : Config) : Value :=
  .object [("max_depth", .ofNat config.maxDepth), ("sequence_mode", .string config.mode.name)]

/-- The complete result of a run. -/
def Board.summary (board : Board) (config : Config) : Value :=
  .object [
    ("config", config.document),
    ("reports", .array (board.reports.toList.map Report.document)),
    ("total_score", .ofNat board.totals.score),
    ("total_weight", .number (.real board.totals.weight)),
    ("risk", .string board.risk.name)]

end DalvikRules
