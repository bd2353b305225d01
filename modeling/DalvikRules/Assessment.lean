import DalvikRules.CallGraph.CommonCallers
import DalvikRules.CallGraph.Predecessors
import DalvikRules.CallOrder
import DalvikRules.Rule
import DalvikRules.SharedValue

/-!
# Grading a rule

A program passes the levels of a rule in order: the permissions are granted, the first method is
known, the second method is known, some common caller reaches the first before the second, and in
some such caller both steps handle one value. An assessment goes from level to level and ends at the
first of the first three that is not passed, or where there is no common caller to look at. The
common callers are looked at one after the other: each may pass the last two levels, and leaves what
it shows as evidence.
-/

namespace DalvikRules

/-- What an assessment is asked for. -/
structure Config where
  /-- How many layers of callers are searched for a common caller. -/
  maxDepth : Nat := 3
  mode : SequenceMode := .loose
deriving DecidableEq, Repr, Inhabited

/-- The five levels, in the order in which they are passed. -/
inductive Level
  | permission
  | apiUsage
  | apiCombination
  | sequence
  | parameter
deriving DecidableEq, Repr, Inhabited

namespace Level

/-- All levels in order. -/
def all : List Level := [permission, apiUsage, apiCombination, sequence, parameter]

/-- The name of a level in reports. -/
def title : Level → String
  | permission => "Permission Request"
  | apiUsage => "Native API Usage"
  | apiCombination => "Native API Combination"
  | sequence => "Native API Sequence"
  | parameter => "Native API Use Same Parameter"

end Level

/-- Which levels were passed. -/
structure Checklist where
  permission : Bool := false
  apiUsage : Bool := false
  apiCombination : Bool := false
  sequence : Bool := false
  parameter : Bool := false
deriving DecidableEq, Repr, Inhabited

namespace Checklist

/-- Whether a level was passed. -/
def passed (checklist : Checklist) : Level → Bool
  | .permission => checklist.permission
  | .apiUsage => checklist.apiUsage
  | .apiCombination => checklist.apiCombination
  | .sequence => checklist.sequence
  | .parameter => checklist.parameter

/-- The levels that were passed. -/
def passedLevels (checklist : Checklist) : List Level :=
  Level.all.filter checklist.passed

/-- A checklist on which one more level was passed. -/
def pass (checklist : Checklist) : Level → Checklist
  | .permission => { checklist with permission := true }
  | .apiUsage => { checklist with apiUsage := true }
  | .apiCombination => { checklist with apiCombination := true }
  | .sequence => { checklist with sequence := true }
  | .parameter => { checklist with parameter := true }

/-- How many levels were passed. -/
def passedCount (checklist : Checklist) : Nat :=
  checklist.passedLevels.length

/-- The share of passed levels in percent. -/
def confidence (checklist : Checklist) : Nat :=
  checklist.passedCount * 20

end Checklist

/-- A common caller that takes a step towards the first method before a step towards the second. -/
structure Finding where
  caller : MethodRef
  first : MethodRef
  second : MethodRef
  /-- Whether both steps handle one value in the caller. -/
  sharesValue : Bool
deriving DecidableEq, Repr, Inhabited

/-- The outcome of one rule for one program. -/
structure Report where
  rule : String
  checklist : Checklist
  /-- The share of passed levels in percent. -/
  confidence : Nat
  score : Nat
  weight : Float
  /-- The callers that take both steps in order. -/
  sequenceCallers : List MethodRef
  /-- The callers in which both steps handle one value. -/
  parameterCallers : List MethodRef
  findings : List Finding
deriving Inhabited

/-- How far an assessment has come: the levels that were passed, and the evidence for the last two
of them. -/
structure Progress where
  checklist : Checklist := {}
  findings : List Finding := []
  parameterCallers : List MethodRef := []
deriving DecidableEq, Repr, Inhabited

namespace Progress

/-- Passes a level. -/
def pass (progress : Progress) (level : Level) : Progress :=
  { progress with checklist := progress.checklist.pass level }

/-- Looks at a common caller. It counts if it takes a first step towards each of the two methods,
and takes them in order. -/
def examine (program : Program) (mode : SequenceMode) (first second : MethodRef)
    (progress : Progress) (caller : MethodRef) : Progress :=
  match (program.predecessors first caller).head? with
  | none => progress
  | some firstStep =>
    match (program.predecessors second caller).head? with
    | none => progress
    | some secondStep =>
      if program.callsInOrder mode caller firstStep secondStep then
        let progress := progress.pass .sequence
        let shares := program.sharesValue caller firstStep.name secondStep.name
        let progress :=
          if shares then
            { progress.pass .parameter with
              parameterCallers := progress.parameterCallers ++ [caller] }
          else progress
        { progress with
          findings := progress.findings ++ [⟨caller, firstStep, secondStep, shares⟩] }
      else progress

end Progress

namespace Rule

/-- Whether a program was granted all permissions of a rule. -/
def granted (rule : Rule) (program : Program) : Bool :=
  rule.permissions.all (program.permissions.contains ·)

/-- Goes through the levels of a rule. Common callers are searched only if the first three are
passed. -/
def passLevels (rule : Rule) (program : Program) (config : Config) :
    Except SearchError Progress := do
  let progress : Progress := {}
  if !rule.granted program then return progress
  let progress := progress.pass .permission
  if (program.find? rule.first).isNone then return progress
  let progress := progress.pass .apiUsage
  if (program.find? rule.second).isNone then return progress
  let progress := progress.pass .apiCombination
  let firstCallers := program.callers rule.first
  let secondCallers := program.callers rule.second
  if firstCallers.isEmpty || secondCallers.isEmpty then return progress
  match ← program.commonCallersFrom 1 config.maxDepth firstCallers secondCallers with
  | none => return progress
  | some common =>
    return common.toList.foldl (Progress.examine program config.mode rule.first rule.second)
      progress

/-- Grades a rule. -/
def assess (rule : Rule) (program : Program) (config : Config) : Except SearchError Report := do
  let progress ← rule.passLevels program config
  return {
    rule := rule.label
    checklist := progress.checklist
    confidence := progress.checklist.confidence
    score := rule.score
    weight := rule.weight progress.checklist.passedCount
    sequenceCallers := progress.findings.map Finding.caller
    parameterCallers := progress.parameterCallers
    findings := progress.findings }

end Rule

end DalvikRules
