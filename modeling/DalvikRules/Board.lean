import DalvikRules.Assessment

/-!
# Score boards

The reports of a list of rules are summed up: every rule adds its full score, while its weight
depends on the levels it passed. The risk compares the total weight with the total score. Totals
and risk are defined over any type of weights with the four operations and an order, so that what
holds of exact numbers can be stated beside what is computed.
-/

namespace DalvikRules

/-- The grade of a list of rules. -/
inductive RiskLevel
  | low
  | moderate
  | high
deriving DecidableEq, Repr, Inhabited

namespace RiskLevel

/-- The name of a grade. -/
def name : RiskLevel → String
  | low => "Low"
  | moderate => "Moderate"
  | high => "High"

/-- The grade in a sentence. -/
def text (risk : RiskLevel) : String :=
  risk.name ++ " Risk"

/-- Up to a quarter of the score the risk is low, up to a half it is moderate. -/
def ofTotals {W : Type} [NatCast W] [Div W] [LE W] [DecidableLE W] (score : Nat) (weight : W) :
    RiskLevel :=
  if weight ≤ ((score : Nat) : W) / ((4 : Nat) : W) then low
  else if weight ≤ ((score : Nat) : W) / ((2 : Nat) : W) then moderate
  else high

end RiskLevel

/-- The sums over the rules reported so far. -/
structure Totals (W : Type) where
  score : Nat
  weight : W
deriving Repr, Inhabited

namespace Totals

variable {W : Type} [NatCast W]

/-- The sums over no rules. -/
def zero : Totals W := ⟨0, ((0 : Nat) : W)⟩

/-- The sums with one more rule. -/
def record [Add W] (totals : Totals W) (score : Nat) (weight : W) : Totals W :=
  ⟨totals.score + score, totals.weight + weight⟩

/-- The grade that the sums give. -/
def risk [Div W] [LE W] [DecidableLE W] (totals : Totals W) : RiskLevel :=
  .ofTotals totals.score totals.weight

end Totals

/-- The reports of a list of rules, in the order of the rules, with their sums. -/
structure Board where
  reports : Array Report := #[]
  totals : Totals Float := Totals.zero
deriving Inhabited

namespace Board

/-- A board with one more report. -/
def record (board : Board) (report : Report) : Board where
  reports := board.reports.push report
  totals := board.totals.record report.score report.weight

/-- The board of a list of reports. -/
def ofReports (reports : List Report) : Board :=
  reports.foldl record {}

/-- The grade of a board. -/
def risk (board : Board) : RiskLevel :=
  board.totals.risk

end Board

/-- Grades a list of rules, one after another or each in a task of its own. The board lists them in
their order either way. -/
def assessRules (program : Program) (config : Config) (parallel : Bool) (rules : List Rule) :
    Except SearchError Board := do
  let reports ←
    if parallel then
      (rules.map fun rule => Task.spawn fun _ => rule.assess program config).mapM Task.get
    else rules.mapM fun rule => rule.assess program config
  return Board.ofReports reports

end DalvikRules
