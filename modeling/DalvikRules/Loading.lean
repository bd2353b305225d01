import DalvikRules.Json.Parser
import DalvikRules.RuleDocument
import DalvikRules.RuleFiles
import DalvikRules.Snapshot

/-!
# Loading snapshots and rules

A snapshot is one file, and so is a rule; a directory of rules is loaded as a whole, in the order of
its paths. Loading stops at the first file that is no good, with the path of that file.
-/

namespace DalvikRules

/-- Why a document could not be loaded. -/
inductive LoadError
  | unsupportedInput (path : Path)
  | unsupportedRules (path : Path)
  | unreadable (path : Path) (failure : Storage.Failure)
  | malformed (path : Path) (fault : Json.Fault)
  | invalid (path : Path) (violations : List Json.Violation)
  | undecodable (path : Path) (fault : RuleFault)
deriving Repr

namespace LoadError

/-- What could not be done. -/
def summary : LoadError → String
  | unsupportedInput path => "unsupported input file: " ++ path.shown
  | unsupportedRules path => "unsupported rule file: " ++ path.shown
  | unreadable path _ => "failed to read " ++ path.shown
  | malformed path _ => "failed to parse " ++ path.shown
  | invalid path violations =>
    "invalid rule " ++ path.shown ++ ": " ++
      String.intercalate "; " (violations.map Json.Violation.message)
  | undecodable path (.unfit _) => "failed to decode " ++ path.shown
  | undecodable path _ => "invalid rule " ++ path.shown

/-- Why it could not be done, where the summary does not say it. -/
def cause? : LoadError → Option String
  | unsupportedInput _ | unsupportedRules _ | invalid _ _ => none
  | unreadable _ failure => some failure.message
  | malformed _ fault => some fault.message
  | undecodable _ fault => some fault.message

end LoadError

/-- The rule that a value describes: the value has to fit the schema before it is taken apart. -/
def Rule.ofValue (path : Path) (value : Json.Value) : Except LoadError Rule := do
  match RuleDocument.schema.violations value with
  | [] =>
    let rule ← (RuleDocument.decode value).mapError (.undecodable path)
    return { rule with source := some path }
  | violations => throw (.invalid path violations)

/-- The rule in the bytes of a document. -/
def Rule.ofDocument (path : Path) (document : List UInt8) : Except LoadError Rule := do
  Rule.ofValue path (← (Json.parse document).mapError (.malformed path))

section

variable {m : Type → Type} [Monad m] [Storage m]

/-- The bytes of a file. -/
def readDocument (path : Path) : ExceptT LoadError m (List UInt8) := do
  match ← Storage.read (m := m) path with
  | .ok content => return content.data.toList
  | .error failure => throw (.unreadable path failure)

/-- Loads a snapshot. -/
def loadSnapshot (path : Path) : ExceptT LoadError m Snapshot := do
  let isDirectory := (← Storage.kind? (m := m) path) = some .directory
  if isDirectory ∨ path.extension? ≠ some documentExtension then
    throw (.unsupportedInput path)
  match Snapshot.parse (← readDocument path) with
  | .ok snapshot => return snapshot
  | .error fault => throw (.malformed path fault)

/-- Loads a rule. -/
def loadRule (path : Path) : ExceptT LoadError m Rule := do
  match Rule.ofDocument path (← readDocument path) with
  | .ok rule => return rule
  | .error error => throw error

/-- The rule files that a path stands for. -/
def ruleFiles (path : Path) : ExceptT LoadError m (List Path) := do
  if (← Storage.kind? (m := m) path) = some .directory then
    return (Storage.documentsBelow (← Storage.entries (m := m) path)).map path.below
  else if path.extension? ≠ some documentExtension then throw (.unsupportedRules path)
  else return [path]

/-- Loads a rule, or all rules below a directory. -/
def loadRules (path : Path) : ExceptT LoadError m (List Rule) := do
  (← ruleFiles path).mapM loadRule

end

end DalvikRules
