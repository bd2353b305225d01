import DalvikRules.Proofs.ExaminedCallers
import Mathlib.Data.List.Chain
import Mathlib.Data.List.Infix

/-!
# The parts of a report fit together

A report is made of a checklist and of findings. Every level asks for all that the level before it
asks for, so the passed levels come without a gap; and findings are collected only after three
levels and in ascending order of their callers. `Report.Coherent` lists what a reader of a report
may rely on, and every assessment ends with such a report.
-/

namespace DalvikRules

/-- A condition that each element of a list hands down to the ones before it holds at the beginning
of the list and nowhere else. -/
private theorem filter_eq_takeWhile {α : Type} {p : α → Bool} {l : List α}
    (h : l.Pairwise fun earlier later => p later = true → p earlier = true) :
    l.filter p = l.takeWhile p := by
  induction l with
  | nil => rfl
  | cons first rest ih =>
    obtain ⟨hfirst, hrest⟩ := List.pairwise_cons.mp h
    by_cases hp : p first = true
    · rw [List.filter_cons_of_pos hp, List.takeWhile_cons_of_pos hp, ih hrest]
    · rw [List.filter_cons_of_neg hp, List.takeWhile_cons_of_neg hp, List.filter_eq_nil_iff]
      exact fun later hlater hlate => hp (hfirst later hlater hlate)

theorem Level.mem_all (level : Level) : level ∈ Level.all := by
  cases level <;> simp [Level.all]

namespace Checklist

variable {checklist : Checklist}

/-- No level is passed unless the one before it is passed. -/
def Stepwise (checklist : Checklist) : Prop :=
  Level.all.IsChain fun earlier later =>
    checklist.passed later = true → checklist.passed earlier = true

/-- The passed levels of such a checklist are the first ones of all. -/
theorem Stepwise.passedLevels_eq (h : checklist.Stepwise) :
    checklist.passedLevels = Level.all.take checklist.passedCount := by
  let handsDown (earlier later : Level) : Prop :=
    checklist.passed later = true → checklist.passed earlier = true
  have : Trans handsDown handsDown handsDown := ⟨fun hfirst hsecond hlate => hfirst (hsecond hlate)⟩
  have hpairwise : Level.all.Pairwise handsDown := List.isChain_iff_pairwise.mp h
  have hfront : checklist.passedLevels <+: Level.all := by
    rw [passedLevels, filter_eq_takeWhile hpairwise]
    exact List.takeWhile_prefix _
  exact List.prefix_iff_eq_take.mp hfront

theorem Stepwise.passed_iff (h : checklist.Stepwise) (level : Level) :
    checklist.passed level = true ↔ level ∈ Level.all.take checklist.passedCount := by
  rw [← h.passedLevels_eq, passedLevels, List.mem_filter, and_iff_right level.mem_all]

theorem passedCount_le (checklist : Checklist) : checklist.passedCount ≤ levelCount :=
  List.length_filter_le _ _

/-- A checklist that passes all that another one passes has at least its confidence. -/
theorem confidence_le {other : Checklist}
    (h : ∀ level, checklist.passed level = true → other.passed level = true) :
    checklist.confidence ≤ other.confidence := by
  have hcount : checklist.passedCount ≤ other.passedCount :=
    (List.monotone_filter_right Level.all fun level => h level).length_le
  exact Nat.mul_le_mul_right 20 hcount

end Checklist

/-- What holds between the parts of a report on a rule whose first `passed` levels were passed. -/
structure Report.Coherent (rule : Rule) (passed : Fin (levelCount + 1)) (report : Report) :
    Prop where
  levels : ∀ level, report.checklist.passed level = true ↔ level ∈ Level.all.take passed
  confidence : report.confidence = 20 * passed.val
  weight : report.weight = rule.weights.get passed
  sequence : report.checklist.passed .sequence = true ↔ report.findings ≠ []
  parameter : report.checklist.passed .parameter = true ↔ report.parameterCallers ≠ []
  callers : report.sequenceCallers = report.findings.map Finding.caller
  ascending : report.sequenceCallers.Pairwise fun caller next => compare caller next = .lt
  shared : report.parameterCallers.Sublist report.sequenceCallers
  unsearched : passed.val < 4 →
    report.findings = [] ∧ report.sequenceCallers = [] ∧ report.parameterCallers = []

namespace Program

variable {program : Program} {mode : SequenceMode} {first second : MethodRef}

/-- Each caller shows at most one finding, and that one carries its name. -/
theorem map_caller_filterMap_finding? (callers : List MethodRef) :
    (callers.filterMap (program.finding? mode first second)).map Finding.caller =
      callers.filter fun caller => (program.finding? mode first second caller).isSome := by
  rw [List.map_filterMap, ← List.filterMap_eq_filter]
  refine List.filterMap_congr fun caller _ => ?_
  cases hshown : program.finding? mode first second caller with
  | none => simp [Option.guard, hshown]
  | some finding =>
    obtain ⟨hcaller, -⟩ := finding?_eq_some_iff.mp hshown
    simp [Option.guard, hshown, hcaller]

end Program

namespace Rule

variable {rule : Rule} {program : Program} {findings : List Finding}

/-- A checklist is stepwise if findings are only put into it after the first three levels. -/
theorem checklist_stepwise
    (h : findings ≠ [] → (rule.checklist program []).apiCombination = true) :
    (rule.checklist program findings).Stepwise := by
  have hshares : findings.any Finding.sharesValue = true → findings ≠ [] := by
    rintro hany rfl
    simp at hany
  simp only [checklist, Bool.and_eq_true] at h
  simp only [Checklist.Stepwise, Level.all, List.isChain_cons_cons, List.isChain_singleton,
    Checklist.passed, checklist, Bool.and_eq_true, Bool.not_eq_true', List.isEmpty_eq_false_iff]
  exact ⟨fun h => h.1, fun h => h.1, h, hshares, trivial⟩

/-- Findings are always collected, and there are none unless the first three levels are passed. -/
theorem exists_evidence (rule : Rule) (program : Program) (config : Config) :
    ∃ findings, rule.evidence program config = .ok findings ∧
      (findings ≠ [] → (rule.checklist program []).apiCombination = true) := by
  refine ⟨_, rule.evidence_eq program config, ?_⟩
  intro hsome
  by_contra hlevel
  rw [examined_eq_empty hlevel, MethodSet.toList_empty] at hsome
  exact hsome rfl

/-- The levels of every report are passed without a gap. -/
theorem stepwise_of_assess {config : Config} {report : Report}
    (h : rule.assess program config = .ok report) : report.checklist.Stepwise := by
  obtain ⟨findings, hevidence, hsearched⟩ := rule.exists_evidence program config
  obtain rfl := Except.ok.inj ((assess_of_evidence hevidence).symm.trans h)
  exact checklist_stepwise hsearched

/-- The callers of a report are in the order of the set that they come from. -/
theorem ascending_of_assess {config : Config} {report : Report}
    (h : rule.assess program config = .ok report) :
    report.sequenceCallers.Pairwise fun caller next => compare caller next = .lt := by
  rw [eq_reportOn_of_assess h, reportOn, Program.map_caller_filterMap_finding?]
  exact Std.ExtTreeSet.ordered_toList.sublist List.filter_sublist

/-- Every assessment ends with a report. -/
theorem exists_report (rule : Rule) (program : Program) (config : Config) :
    ∃ report, rule.assess program config = .ok report := by
  obtain ⟨findings, hevidence, -⟩ := rule.exists_evidence program config
  exact ⟨rule.reportOn program findings, assess_of_evidence hevidence⟩

/-- Every assessment ends with a report whose parts fit together. The passed levels are the first
ones, the confidence and the weight follow from their number, and each of the last two levels is
passed precisely if there is evidence for it. Callers are listed in strictly ascending order, those
that share a value among those that take both steps in order. -/
theorem assess_coherent (rule : Rule) (program : Program) (config : Config) :
    ∃ report, rule.assess program config = .ok report ∧
      ∃ passed, report.Coherent rule passed := by
  obtain ⟨findings, hevidence, hsearched⟩ := rule.exists_evidence program config
  have hreport := assess_of_evidence hevidence
  have hstepwise : (rule.checklist program findings).Stepwise := checklist_stepwise hsearched
  have hcount := (rule.checklist program findings).passedCount_le
  have hsequence : (rule.checklist program findings).passed .sequence = true ↔ findings ≠ [] := by
    simp [Checklist.passed, checklist]
  refine ⟨_, hreport, ⟨_, Nat.lt_succ_of_le hcount⟩, ?_⟩
  constructor
  case levels => exact hstepwise.passed_iff
  case confidence => exact Nat.mul_comm _ _
  case weight =>
    rw [reportOn, weight]
    simp only [Nat.min_eq_left hcount]
  case sequence => exact hsequence
  case parameter => simp [Checklist.passed, checklist, reportOn, sharingCallers]
  case callers => rfl
  case ascending => exact ascending_of_assess hreport
  case shared => exact List.filter_sublist.map _
  case unsearched =>
    intro hfew
    have hfour : ∀ fewer : Fin 4, Level.sequence ∉ Level.all.take fewer := by decide
    have hnone : findings = [] := by
      by_contra hsome
      exact hfour ⟨_, hfew⟩ ((hstepwise.passed_iff .sequence).mp (hsequence.mpr hsome))
    simp [reportOn, sharingCallers, hnone]

end Rule

end DalvikRules
