import DalvikRules.Program

/-!
# The nearest common callers

Two sets of methods are widened by their direct callers, one layer at a time and both together,
until they overlap. The search gives up after a number of rounds, or as soon as neither set grows:
then all callers above both sets are known, and they have nothing in common.
-/

namespace DalvikRules

/-- Why a search for common callers cannot start. -/
inductive SearchError
  /-- There are no candidates on one side; the sizes of both sides are kept. -/
  | emptyCandidates (left right : Nat)
deriving DecidableEq, Repr

/-- The wording of a search error. -/
def SearchError.message : SearchError → String
  | .emptyCandidates left right =>
    s!"common caller search needs two non-empty candidate lists (got {left} and {right})"

namespace Program

/-- A set of methods together with all their direct callers. -/
def widen (program : Program) (methods : MethodSet) : MethodSet :=
  methods.toList.foldr (fun method wider => program.callers method ∪ wider) methods

/-- The overlap of two sets of methods after the least number of widenings, at most `rounds`, that
makes them overlap. -/
def commonCallers (program : Program) (rounds : Nat) (left right : MethodSet) :
    Except SearchError (Option MethodSet) :=
  let common := left ∩ right
  if left.isEmpty || right.isEmpty then
    .error (.emptyCandidates left.size right.size)
  else if common.isEmpty then
    match rounds with
    | 0 => .ok none
    | rounds + 1 =>
      let widerLeft := program.widen left
      let widerRight := program.widen right
      if widerLeft.size = left.size ∧ widerRight.size = right.size then .ok none
      else program.commonCallers rounds widerLeft widerRight
  else .ok (some common)

/-- The search as it is asked for: it stands at `depth` and goes no deeper than `maxDepth`. -/
def commonCallersFrom (program : Program) (depth maxDepth : Nat) (left right : MethodSet) :
    Except SearchError (Option MethodSet) :=
  program.commonCallers (maxDepth - depth) left right

/-- Each widening leads one deeper, and the depth is tested before the sets are widened. -/
theorem commonCallersFrom_step (program : Program) (depth maxDepth : Nat)
    (left right : MethodSet) :
    program.commonCallersFrom depth maxDepth left right =
      if left.isEmpty || right.isEmpty then .error (.emptyCandidates left.size right.size)
      else if !(left ∩ right).isEmpty then .ok (some (left ∩ right))
      else if depth + 1 > maxDepth then .ok none
      else if (program.widen left).size = left.size ∧ (program.widen right).size = right.size then
        .ok none
      else
        program.commonCallersFrom (depth + 1) maxDepth (program.widen left)
          (program.widen right) := by
  rw [commonCallersFrom, commonCallers.eq_def, commonCallersFrom]
  by_cases hcommon : (left ∩ right).isEmpty
  · simp only [hcommon, if_true, Bool.not_true, Bool.false_eq_true, if_false]
    by_cases hstop : depth + 1 > maxDepth
    · rw [if_pos hstop, Nat.sub_eq_zero_of_le (by omega)]
    · rw [if_neg hstop, show maxDepth - depth = maxDepth - (depth + 1) + 1 by omega]
  · simp [hcommon]

end Program

end DalvikRules
