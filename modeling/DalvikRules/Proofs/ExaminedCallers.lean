import DalvikRules.Proofs.Findings
import DalvikRules.Proofs.NearestCommonCallers

/-!
# The callers that an assessment examines

The search for common callers depends neither on the sequence mode nor on the order of the two
methods. What it hands on is a set of callers, empty if the first three levels are not passed or if
nothing is found, and the findings of a report are what the members of this set show.
-/

namespace DalvikRules

namespace Program

variable {program : Program} {first second : MethodRef} {maxDepth : Nat}

/-- The nearest common callers of two methods within a search depth. There are none if the search
finds none, or if one of the two methods has no callers to start from. -/
def nearestCallers (program : Program) (maxDepth : Nat) (first second : MethodRef) : MethodSet :=
  (program.commonCallersFrom 1 maxDepth (program.callers first)
    (program.callers second)).toOption.join.getD ∅

/-- It does not matter which of the two methods comes first. -/
theorem nearestCallers_comm (program : Program) (maxDepth : Nat) (first second : MethodRef) :
    program.nearestCallers maxDepth second first =
      program.nearestCallers maxDepth first second := by
  have hsymm := program.commonCallers_symm (maxDepth - 1) (program.callers first)
    (program.callers second)
  rw [nearestCallers, nearestCallers, commonCallersFrom, commonCallersFrom, hsymm]

/-- The search for findings never fails: it is not started without candidates, and then each of the
nearest common callers is asked what it shows. -/
theorem findings_eq (program : Program) (config : Config) (first second : MethodRef) :
    program.findings config first second =
      .ok ((program.nearestCallers config.maxDepth first second).toList.filterMap
        (program.finding? config.mode first second)) := by
  have hnone :
      (∅ : MethodSet).toList.filterMap (program.finding? config.mode first second) = [] := by
    rw [MethodSet.toList_empty, List.filterMap_nil]
  rw [findings, nearestCallers]
  cases hsearch : program.commonCallersFrom 1 config.maxDepth (program.callers first)
      (program.callers second) with
  | error error =>
    have hempty : ((program.callers first).isEmpty || (program.callers second).isEmpty) = true :=
      isEmpty_or_iff.mpr (commonCallers_eq_error_iff.mp hsearch).1
    rw [if_pos hempty]
    exact congrArg Except.ok hnone.symm
  | ok result =>
    have hcandidates :
        ¬ ((program.callers first).isEmpty || (program.callers second).isEmpty) = true := by
      intro hempty
      have herror : program.commonCallersFrom 1 config.maxDepth (program.callers first)
          (program.callers second) = _ := commonCallers_of_empty _ (isEmpty_or_iff.mp hempty)
      rw [hsearch] at herror
      cases herror
    rw [if_neg hcandidates]
    cases result with
    | none => exact congrArg Except.ok hnone.symm
    | some common => rfl

end Program

namespace Rule

variable {rule : Rule} {program : Program} {config : Config}

/-- The callers that an assessment goes through after the first three levels. -/
def examined (rule : Rule) (program : Program) (maxDepth : Nat) : MethodSet :=
  if (rule.checklist program []).apiCombination then
    program.nearestCallers maxDepth rule.first rule.second
  else ∅

theorem examined_eq_empty (h : ¬ (rule.checklist program []).apiCombination = true)
    (maxDepth : Nat) : rule.examined program maxDepth = ∅ :=
  if_neg h

/-- An assessment collects what the examined callers show, in their order. -/
theorem evidence_eq (rule : Rule) (program : Program) (config : Config) :
    rule.evidence program config =
      .ok ((rule.examined program config.maxDepth).toList.filterMap
        (program.finding? config.mode rule.first rule.second)) := by
  rw [evidence, examined]
  split
  · exact program.findings_eq config rule.first rule.second
  · rw [MethodSet.toList_empty, List.filterMap_nil]

/-- A report is about what the examined callers show. -/
theorem eq_reportOn_of_assess {report : Report} (h : rule.assess program config = .ok report) :
    report = rule.reportOn program ((rule.examined program config.maxDepth).toList.filterMap
      (program.finding? config.mode rule.first rule.second)) := by
  rw [assess_eq, evidence_eq] at h
  exact (Except.ok.inj h).symm

/-- The findings of a report are what the examined callers show. -/
theorem findings_eq_examined {report : Report} (h : rule.assess program config = .ok report) :
    report.findings = (rule.examined program config.maxDepth).toList.filterMap
      (program.finding? config.mode rule.first rule.second) :=
  findings_of_evidence (rule.evidence_eq program config) h

/-- A report lists a finding precisely if its caller is examined and shows it. -/
theorem mem_findings_of_assess {report : Report} (h : rule.assess program config = .ok report)
    {finding : Finding} :
    finding ∈ report.findings ↔ finding.caller ∈ rule.examined program config.maxDepth ∧
      program.finding? config.mode rule.first rule.second finding.caller = some finding := by
  rw [findings_eq_examined h, List.mem_filterMap]
  constructor
  · rintro ⟨caller, hcaller, hshown⟩
    obtain ⟨rfl, -⟩ := Program.finding?_eq_some_iff.mp hshown
    exact ⟨Std.ExtTreeSet.mem_toList.mp hcaller, hshown⟩
  · rintro ⟨hcaller, hshown⟩
    exact ⟨finding.caller, Std.ExtTreeSet.mem_toList.mpr hcaller, hshown⟩

end Rule

end DalvikRules
