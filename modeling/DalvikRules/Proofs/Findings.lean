import DalvikRules.Assessment

/-!
# The findings of a report

An assessment is a run through the levels of a rule. What it ends with can be said at once: each
common caller shows a finding or none, the list of these findings is the evidence, and the whole
report is read off that list. One caller adds what it shows to the progress of the run
(`Progress.examine_eq`), so all of them add their findings in order (`Progress.foldl_examine`), and
`Rule.assess_eq` says that the run ends in the report on the evidence.
-/

namespace DalvikRules

namespace Program

/-- What a common caller shows: the first step it takes towards each of the two methods, if it
takes them in order. -/
def finding? (program : Program) (mode : SequenceMode) (first second caller : MethodRef) :
    Option Finding :=
  match (program.predecessors first caller).head?, (program.predecessors second caller).head? with
  | some firstStep, some secondStep =>
    if program.callsInOrder mode caller firstStep secondStep then
      some ⟨caller, firstStep, secondStep,
        program.sharesValue caller firstStep.name secondStep.name⟩
    else none
  | _, _ => none

/-- What the nearest common callers of two methods show. -/
def findings (program : Program) (config : Config) (first second : MethodRef) :
    Except SearchError (List Finding) :=
  if (program.callers first).isEmpty || (program.callers second).isEmpty then .ok []
  else
    (program.commonCallersFrom 1 config.maxDepth (program.callers first)
      (program.callers second)).map fun
      | none => []
      | some common => common.toList.filterMap (program.finding? config.mode first second)

variable {program : Program} {first second : MethodRef}

theorem finding?_eq_some_iff {mode : SequenceMode} {caller : MethodRef} {finding : Finding} :
    program.finding? mode first second caller = some finding ↔
      finding.caller = caller ∧
        (program.predecessors first caller).head? = some finding.first ∧
        (program.predecessors second caller).head? = some finding.second ∧
        program.callsInOrder mode caller finding.first finding.second = true ∧
        finding.sharesValue =
          program.sharesValue caller finding.first.name finding.second.name := by
  rw [finding?]
  split
  · next firstStep secondStep hfirst hsecond =>
    rw [hfirst, hsecond]
    obtain ⟨_, _, _, _⟩ := finding
    constructor
    · intro h
      obtain ⟨horder, hfinding⟩ := Option.ite_none_right_eq_some.mp h
      cases hfinding
      exact ⟨rfl, rfl, rfl, horder, rfl⟩
    · rintro ⟨rfl, hfirst, hsecond, horder, hshares⟩
      cases hfirst
      cases hsecond
      rw [if_pos horder]
      exact congrArg (fun shares => some (Finding.mk _ _ _ shares)) hshares.symm
  · next hmissing =>
    refine iff_of_false (by simp) fun h => ?_
    exact hmissing _ _ h.2.1 h.2.2.1

/-- A finding is what some common caller shows. -/
theorem mem_findings {config : Config} {findings : List Finding} {finding : Finding}
    (h : program.findings config first second = .ok findings) (hmem : finding ∈ findings) :
    ∃ common, program.commonCallersFrom 1 config.maxDepth (program.callers first)
        (program.callers second) = .ok (some common) ∧
      ∃ caller ∈ common, program.finding? config.mode first second caller = some finding := by
  rw [Program.findings] at h
  split at h
  · cases h
    simp at hmem
  · cases hsearch : program.commonCallersFrom 1 config.maxDepth (program.callers first)
        (program.callers second) with
    | error error =>
      rw [hsearch] at h
      cases h
    | ok result =>
      rw [hsearch] at h
      cases result with
      | none =>
        cases h
        simp at hmem
      | some common =>
        cases h
        obtain ⟨caller, hcaller, hfinding⟩ := List.mem_filterMap.mp hmem
        exact ⟨common, rfl, caller, Std.ExtTreeSet.mem_toList.mp hcaller, hfinding⟩

end Program

/-! ### The run through the levels -/

/-- The callers in which both steps of a finding handle one value. -/
def sharingCallers (findings : List Finding) : List MethodRef :=
  (findings.filter Finding.sharesValue).map Finding.caller

namespace Progress

/-- A progress with more findings and the levels that they pass. -/
def add (progress : Progress) (found : List Finding) : Progress where
  checklist := { progress.checklist with
    sequence := progress.checklist.sequence || !found.isEmpty
    parameter := progress.checklist.parameter || found.any Finding.sharesValue }
  findings := progress.findings ++ found
  parameterCallers := progress.parameterCallers ++ sharingCallers found

theorem add_nil (progress : Progress) : progress.add [] = progress := by
  simp [add, sharingCallers]

theorem add_add (progress : Progress) (found more : List Finding) :
    (progress.add found).add more = progress.add (found ++ more) := by
  have hempty : (found ++ more).isEmpty = (found.isEmpty && more.isEmpty) := by
    cases found <;> simp
  simp [add, sharingCallers, hempty, Bool.or_assoc]

variable {program : Program} {mode : SequenceMode} {first second : MethodRef}

/-- A common caller adds what it shows. -/
theorem examine_eq (progress : Progress) (caller : MethodRef) :
    examine program mode first second progress caller =
      progress.add (program.finding? mode first second caller).toList := by
  rw [examine, Program.finding?]
  cases (program.predecessors first caller).head? with
  | none => exact progress.add_nil.symm
  | some firstStep =>
    cases (program.predecessors second caller).head? with
    | none => exact progress.add_nil.symm
    | some secondStep =>
      dsimp only
      split
      · cases hshares : program.sharesValue caller firstStep.name secondStep.name <;>
          simp [add, sharingCallers, pass, Checklist.pass]
      · exact progress.add_nil.symm

/-- All common callers add what they show, in order. -/
theorem foldl_examine (progress : Progress) (callers : List MethodRef) :
    callers.foldl (examine program mode first second) progress =
      progress.add (callers.filterMap (program.finding? mode first second)) := by
  induction callers generalizing progress with
  | nil => exact progress.add_nil.symm
  | cons caller rest ih =>
    rw [List.foldl_cons, ih, examine_eq, add_add]
    cases hfinding : program.finding? mode first second caller <;> simp [hfinding]

end Progress

namespace Rule

/-- The checklist of a rule, given what its common callers showed. -/
def checklist (rule : Rule) (program : Program) (findings : List Finding) : Checklist where
  permission := rule.granted program
  apiUsage := rule.granted program && (program.find? rule.first).isSome
  apiCombination := rule.granted program && (program.find? rule.first).isSome &&
    (program.find? rule.second).isSome
  sequence := !findings.isEmpty
  parameter := findings.any Finding.sharesValue

/-- The findings that an assessment goes on with. -/
def evidence (rule : Rule) (program : Program) (config : Config) :
    Except SearchError (List Finding) :=
  if (rule.checklist program []).apiCombination then
    program.findings config rule.first rule.second
  else .ok []

/-- The report of a rule, given what its common callers showed. -/
def reportOn (rule : Rule) (program : Program) (findings : List Finding) : Report where
  rule := rule.label
  checklist := rule.checklist program findings
  confidence := (rule.checklist program findings).confidence
  score := rule.score
  weight := rule.weight (rule.checklist program findings).passedCount
  sequenceCallers := findings.map Finding.caller
  parameterCallers := sharingCallers findings
  findings := findings

variable {rule : Rule} {program : Program} {config : Config}

/-- What a run has come to after it found the given evidence. -/
def progressOn (rule : Rule) (program : Program) (findings : List Finding) : Progress :=
  ⟨rule.checklist program findings, findings, sharingCallers findings⟩

theorem add_progressOn_nil (findings : List Finding) :
    (rule.progressOn program []).add findings = rule.progressOn program findings := by
  simp [progressOn, Progress.add, checklist, sharingCallers]

/-- A run that ends early has no evidence. -/
theorem ok_eq_map_of_progress {progress : Progress} {evidence : Except SearchError (List Finding)}
    (hprogress : rule.progressOn program [] = progress) (hevidence : evidence = .ok []) :
    Except.ok progress = evidence.map (rule.progressOn program) := by
  rw [hevidence, ← hprogress]
  rfl

/-- The run through the levels ends with the evidence and the checklist that follows from it. -/
theorem passLevels_eq (rule : Rule) (program : Program) (config : Config) :
    rule.passLevels program config =
      (rule.evidence program config).map (rule.progressOn program) := by
  have hearly (hlevel : (rule.checklist program []).apiCombination = false) :
      rule.evidence program config = .ok [] := by
    rw [evidence, if_neg (by rw [hlevel]; exact Bool.false_ne_true)]
  rw [passLevels]
  -- One case for each way out of the run.
  cases hgranted : rule.granted program with
  | false =>
    have hprogress : rule.progressOn program [] = {} := by
      simp [progressOn, checklist, hgranted, sharingCallers]
    exact ok_eq_map_of_progress hprogress (hearly (by simp [checklist, hgranted]))
  | true =>
  cases hfirst : program.find? rule.first with
  | none =>
    have hprogress : rule.progressOn program [] = ({} : Progress).pass .permission := by
      simp [progressOn, checklist, hgranted, hfirst, sharingCallers, Progress.pass, Checklist.pass]
    exact ok_eq_map_of_progress hprogress (hearly (by simp [checklist, hfirst]))
  | some _ =>
  cases hsecond : program.find? rule.second with
  | none =>
    have hprogress : rule.progressOn program [] =
        (({} : Progress).pass .permission).pass .apiUsage := by
      simp [progressOn, checklist, hgranted, hfirst, hsecond, sharingCallers, Progress.pass,
        Checklist.pass]
    exact ok_eq_map_of_progress hprogress (hearly (by simp [checklist, hsecond]))
  | some _ =>
    have hprogress : rule.progressOn program [] =
        ((({} : Progress).pass .permission).pass .apiUsage).pass .apiCombination := by
      simp [progressOn, checklist, hgranted, hfirst, hsecond, sharingCallers, Progress.pass,
        Checklist.pass]
    have hlevel : (rule.checklist program []).apiCombination = true := by
      simp [checklist, hgranted, hfirst, hsecond]
    rw [evidence, if_pos hlevel, Program.findings]
    by_cases hcallers :
        ((program.callers rule.first).isEmpty || (program.callers rule.second).isEmpty) = true
    · rw [if_pos hcallers]
      simp only [hcallers]
      exact ok_eq_map_of_progress hprogress rfl
    · rw [if_neg hcallers]
      simp only [hcallers, ← hprogress, Progress.foldl_examine, add_progressOn_nil]
      cases program.commonCallersFrom 1 config.maxDepth (program.callers rule.first)
          (program.callers rule.second) with
      | error error => rfl
      | ok common => cases common <;> rfl

/-- An assessment collects findings and reports on them. -/
theorem assess_eq (rule : Rule) (program : Program) (config : Config) :
    rule.assess program config = (rule.evidence program config).map (rule.reportOn program) := by
  rw [assess, passLevels_eq]
  cases rule.evidence program config <;> rfl

theorem assess_of_evidence {findings : List Finding}
    (h : rule.evidence program config = .ok findings) :
    rule.assess program config = .ok (rule.reportOn program findings) := by
  rw [assess_eq, h]
  rfl

/-- A report lists the findings that were collected. -/
theorem findings_of_evidence {findings : List Finding} {report : Report}
    (hevidence : rule.evidence program config = .ok findings)
    (hreport : rule.assess program config = .ok report) : report.findings = findings := by
  rw [assess_eq, hevidence] at hreport
  cases hreport
  rfl

/-- Everything in a report is read off its findings. -/
theorem eq_reportOn_findings {report : Report} (h : rule.assess program config = .ok report) :
    report = rule.reportOn program report.findings := by
  rw [assess_eq] at h
  cases hevidence : rule.evidence program config with
  | error error =>
    rw [hevidence] at h
    cases h
  | ok findings =>
    rw [hevidence] at h
    cases h
    rfl

theorem confidence_of_assess {report : Report} (h : rule.assess program config = .ok report) :
    report.confidence = report.checklist.confidence := by
  rw [eq_reportOn_findings h]
  rfl

theorem sequenceCallers_of_assess {report : Report} (h : rule.assess program config = .ok report) :
    report.sequenceCallers = report.findings.map Finding.caller := by
  rw [eq_reportOn_findings h]
  rfl

theorem parameterCallers_of_assess {report : Report}
    (h : rule.assess program config = .ok report) :
    report.parameterCallers = sharingCallers report.findings := by
  rw [eq_reportOn_findings h]
  rfl

/-- A report without the first three levels lists no findings, and any other report lists what the
search for common callers shows. -/
theorem findings_of_assess {report : Report} (h : rule.assess program config = .ok report) :
    report.findings = [] ∨
      program.findings config rule.first rule.second = .ok report.findings := by
  cases hevidence : rule.evidence program config with
  | error error =>
    rw [assess_eq, hevidence] at h
    cases h
  | ok findings =>
    rw [findings_of_evidence hevidence h]
    rw [evidence] at hevidence
    split at hevidence
    · exact .inr hevidence
    · exact .inl (Except.ok.inj hevidence).symm

end Rule

end DalvikRules
