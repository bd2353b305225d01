import DalvikRules.Proofs.CallOrderLaws
import DalvikRules.Proofs.CallPairs
import DalvikRules.Proofs.ReportCoherence

/-!
# Rules with their methods swapped

A rule and its mirror image ask for the same two methods in the opposite order. Everything that is
searched treats the two methods alike: the examined callers, the steps that these take, and the
values that the steps share. Only the order of the calls tells the two rules apart, and in the
strict reading it cannot hold both ways.
-/

namespace DalvikRules

namespace Program

variable {program : Program} {first second : MethodRef} {mode : SequenceMode}

theorem callsInOrder_strict_swap {common : MethodRef}
    (h : program.callsInOrder .strict common first second = true) :
    program.callsInOrder .strict common second first = false := by
  rw [callsInOrder_eq] at h ⊢
  exact callsInOrder_strict_asymm h

/-- The first steps that a caller takes towards two methods, if it takes one towards each. -/
def steps? (program : Program) (first second caller : MethodRef) :
    Option (MethodRef × MethodRef) :=
  match (program.predecessors first caller).head?, (program.predecessors second caller).head? with
  | some firstStep, some secondStep => some (firstStep, secondStep)
  | _, _ => none

theorem steps?_eq_some_iff {caller firstStep secondStep : MethodRef} :
    program.steps? first second caller = some (firstStep, secondStep) ↔
      (program.predecessors first caller).head? = some firstStep ∧
        (program.predecessors second caller).head? = some secondStep := by
  rw [steps?]
  split
  · next hfirst hsecond => simp only [hfirst, hsecond, Option.some.injEq, Prod.mk.injEq]
  · next hmissing =>
    refine iff_of_false (by simp) ?_
    rintro ⟨hfirst, hsecond⟩
    exact hmissing _ _ hfirst hsecond

/-- Towards two swapped methods a caller takes the same steps, swapped. -/
theorem steps?_swap {caller firstStep secondStep : MethodRef} :
    program.steps? second first caller = some (firstStep, secondStep) ↔
      program.steps? first second caller = some (secondStep, firstStep) := by
  rw [steps?_eq_some_iff, steps?_eq_some_iff]
  exact and_comm

/-- What a caller shows carries its steps. -/
theorem steps?_of_finding? {caller : MethodRef} {finding : Finding}
    (h : program.finding? mode first second caller = some finding) :
    program.steps? first second caller = some (finding.first, finding.second) := by
  obtain ⟨-, hfirst, hsecond, -, -⟩ := finding?_eq_some_iff.mp h
  exact steps?_eq_some_iff.mpr ⟨hfirst, hsecond⟩

/-- What a caller shows for two methods and for the swapped ones agrees but for the order of the
steps. -/
theorem finding?_swap {caller : MethodRef} {finding mirrored : Finding}
    (h : program.finding? mode first second caller = some finding)
    (hmirrored : program.finding? mode second first caller = some mirrored) :
    mirrored = ⟨finding.caller, finding.second, finding.first, finding.sharesValue⟩ := by
  have hsteps := steps?_of_finding? h
  have hswapped := steps?_swap.mp (steps?_of_finding? hmirrored)
  obtain ⟨hfirst, hsecond⟩ := Prod.mk.inj (Option.some.inj (hsteps.symm.trans hswapped))
  obtain ⟨hcaller, -, -, -, hshares⟩ := finding?_eq_some_iff.mp h
  obtain ⟨hcaller', -, -, -, hshares'⟩ := finding?_eq_some_iff.mp hmirrored
  obtain ⟨caller', first', second', shares'⟩ := mirrored
  dsimp only at hfirst hsecond hcaller' hshares'
  subst hcaller hcaller' hfirst hsecond
  rw [hshares, hshares', sharesValue_comm]

end Program

namespace Rule

variable {rule : Rule} {program : Program} {config : Config}

/-- The same rule about the same two methods in the opposite order. -/
def mirror (rule : Rule) : Rule :=
  { rule with first := rule.second, second := rule.first }

theorem apiCombination_mirror (rule : Rule) (program : Program) :
    (rule.mirror.checklist program []).apiCombination =
      (rule.checklist program []).apiCombination := by
  have hgranted : rule.mirror.granted program = rule.granted program := rfl
  simp only [checklist, hgranted, Bool.and_assoc]
  rw [Bool.and_comm (program.find? rule.mirror.first).isSome]
  rfl

/-- A rule and its mirror image examine the same callers. -/
theorem examined_mirror (rule : Rule) (program : Program) (maxDepth : Nat) :
    rule.mirror.examined program maxDepth = rule.examined program maxDepth := by
  have hnearest := program.nearestCallers_comm maxDepth rule.first rule.second
  rw [examined, examined, apiCombination_mirror]
  exact if_congr Iff.rfl hnearest rfl

/-- A caller of a report is listed for a shared value precisely if its finding says so. No caller is
listed with two findings. -/
theorem mem_parameterCallers_iff {report : Report} {finding : Finding}
    (h : rule.assess program config = .ok report) (hfinding : finding ∈ report.findings) :
    finding.caller ∈ report.parameterCallers ↔ finding.sharesValue = true := by
  rw [parameterCallers_of_assess h]
  constructor
  · intro hmem
    obtain ⟨other, hother, hcaller⟩ := List.mem_map.mp hmem
    obtain ⟨hother, hshares⟩ := List.mem_filter.mp hother
    obtain ⟨-, hshown⟩ := (mem_findings_of_assess h).mp hfinding
    obtain ⟨-, hshown'⟩ := (mem_findings_of_assess h).mp hother
    rw [hcaller] at hshown'
    obtain rfl : finding = other := Option.some.inj (hshown.symm.trans hshown')
    exact hshares
  · intro hshares
    exact List.mem_map_of_mem (List.mem_filter.mpr ⟨hfinding, hshares⟩)

/-- A caller that both reports list shows the same in both, but for the order of its steps. -/
theorem exists_findings_of_mirror {report mirrored : Report} {caller : MethodRef}
    (hreport : rule.assess program config = .ok report)
    (hmirrored : rule.mirror.assess program config = .ok mirrored)
    (hcaller : caller ∈ report.sequenceCallers) (hcaller' : caller ∈ mirrored.sequenceCallers) :
    ∃ finding ∈ report.findings, finding.caller = caller ∧
      ⟨finding.caller, finding.second, finding.first, finding.sharesValue⟩ ∈ mirrored.findings := by
  rw [sequenceCallers_of_assess hreport] at hcaller
  rw [sequenceCallers_of_assess hmirrored] at hcaller'
  obtain ⟨finding, hfinding, rfl⟩ := List.mem_map.mp hcaller
  obtain ⟨other, hother, hsame⟩ := List.mem_map.mp hcaller'
  obtain ⟨-, hshown⟩ := (mem_findings_of_assess hreport).mp hfinding
  obtain ⟨-, hshown'⟩ := (mem_findings_of_assess hmirrored).mp hother
  rw [hsame] at hshown'
  rw [Program.finding?_swap hshown hshown'] at hother
  exact ⟨finding, hfinding, rfl, hother⟩

/-- A rule and its mirror image are graded alike up to the order of the two calls. They examine the
same callers, and a finding of the mirror image names the steps that the rule itself finds, swapped.
In the strict reading they have no caller in common. Where both report a caller, the two steps share
a value for both rules or for neither. -/
theorem assess_mirror (rule : Rule) (program : Program) (config : Config) :
    ∃ report mirrored, rule.assess program config = .ok report ∧
      rule.mirror.assess program config = .ok mirrored ∧
      (config.mode = .strict →
        ∀ caller ∈ report.sequenceCallers, caller ∉ mirrored.sequenceCallers) ∧
      rule.mirror.examined program config.maxDepth = rule.examined program config.maxDepth ∧
      (∀ finding ∈ mirrored.findings, finding.caller ∈ rule.examined program config.maxDepth ∧
        program.steps? rule.first rule.second finding.caller =
          some (finding.second, finding.first)) ∧
      ∀ caller ∈ report.sequenceCallers, caller ∈ mirrored.sequenceCallers →
        (caller ∈ report.parameterCallers ↔ caller ∈ mirrored.parameterCallers) := by
  obtain ⟨report, hreport⟩ := rule.exists_report program config
  obtain ⟨mirrored, hmirrored⟩ := rule.mirror.exists_report program config
  have hexamined := rule.examined_mirror program config.maxDepth
  refine ⟨report, mirrored, hreport, hmirrored, ?strict, hexamined, ?steps, ?shared⟩
  case strict =>
    intro hmode caller hcaller hcaller'
    obtain ⟨finding, hfinding, -, hswapped⟩ :=
      exists_findings_of_mirror hreport hmirrored hcaller hcaller'
    obtain ⟨-, hshown⟩ := (mem_findings_of_assess hreport).mp hfinding
    obtain ⟨-, hshown'⟩ := (mem_findings_of_assess hmirrored).mp hswapped
    obtain ⟨-, -, -, horder, -⟩ := Program.finding?_eq_some_iff.mp hshown
    obtain ⟨-, -, -, hback, -⟩ := Program.finding?_eq_some_iff.mp hshown'
    rw [hmode] at horder hback
    have hdenied := Program.callsInOrder_strict_swap horder
    rw [hback] at hdenied
    cases hdenied
  case steps =>
    intro finding hfinding
    obtain ⟨hcaller, hshown⟩ := (mem_findings_of_assess hmirrored).mp hfinding
    rw [hexamined] at hcaller
    exact ⟨hcaller, Program.steps?_swap.mp (Program.steps?_of_finding? hshown)⟩
  case shared =>
    intro caller hcaller hcaller'
    obtain ⟨finding, hfinding, rfl, hswapped⟩ :=
      exists_findings_of_mirror hreport hmirrored hcaller hcaller'
    have hlisted := mem_parameterCallers_iff hreport hfinding
    have hlisted' := mem_parameterCallers_iff hmirrored hswapped
    exact hlisted.trans hlisted'.symm

end Rule

/-- A program in which `run` reads, sends and reads again, all with one value. -/
def Program.readsSendsReads : Program where
  permissions := ∅
  bodies := [
    ⟨⟨"LA;", "run"⟩, "()V", [⟨0, "const-string", [⟨"v0"⟩], none⟩,
      ⟨2, "invoke-virtual", [⟨"v0"⟩], some "LS;->query()V"⟩,
      ⟨4, "invoke-virtual", [⟨"v0"⟩], some "LT;->send()V"⟩,
      ⟨6, "invoke-virtual", [⟨"v0"⟩], some "LS;->query()V"⟩]⟩]

/-- What `run` shows for the swapped methods. -/
def Finding.sendsThenReads : Finding :=
  ⟨⟨"LA;", "run"⟩, ⟨"LT;", "send"⟩, ⟨"LS", "query"⟩, true⟩

/-- In strict order `run` is reported for one of the two rules only. In loose order it is reported
for both, since it reads before it sends and after, and for both on account of the one value. -/
theorem Rule.assess_mirror_readBeforeSend :
    (∃ report mirrored, readBeforeSend.assess .readsThenSends ⟨3, .strict⟩ = .ok report ∧
      readBeforeSend.mirror.assess .readsThenSends ⟨3, .strict⟩ = .ok mirrored ∧
      ⟨"LA;", "run"⟩ ∈ report.sequenceCallers ∧ ⟨"LA;", "run"⟩ ∉ mirrored.sequenceCallers) ∧
    ∃ report mirrored, readBeforeSend.assess .readsSendsReads {} = .ok report ∧
      readBeforeSend.mirror.assess .readsSendsReads {} = .ok mirrored ∧
      Finding.sendsThenReads ∈ mirrored.findings ∧
      Program.readsSendsReads.steps? ⟨"LS", "query"⟩ ⟨"LT;", "send"⟩ ⟨"LA;", "run"⟩ =
        some (⟨"LS", "query"⟩, ⟨"LT;", "send"⟩) ∧
      ⟨"LA;", "run"⟩ ∈ report.sequenceCallers ∧ ⟨"LA;", "run"⟩ ∈ mirrored.sequenceCallers ∧
      ⟨"LA;", "run"⟩ ∈ report.parameterCallers ∧ ⟨"LA;", "run"⟩ ∈ mirrored.parameterCallers := by
  constructor
  · have hevidence : readBeforeSend.evidence .readsThenSends ⟨3, .strict⟩ =
        .ok [.readsThenSends] := by
      decide +kernel
    obtain ⟨report, mirrored, hreport, hmirrored, hstrict, -⟩ :=
      assess_mirror readBeforeSend .readsThenSends ⟨3, .strict⟩
    have hcaller : ⟨"LA;", "run"⟩ ∈ report.sequenceCallers := by
      rw [sequenceCallers_of_assess hreport, findings_of_evidence hevidence hreport]
      exact List.mem_singleton_self _
    exact ⟨report, mirrored, hreport, hmirrored, hcaller, hstrict rfl _ hcaller⟩
  · have hevidence : readBeforeSend.evidence .readsSendsReads {} =
        .ok [⟨⟨"LA;", "run"⟩, ⟨"LS", "query"⟩, ⟨"LT;", "send"⟩, true⟩] := by
      decide +kernel
    have hevidence' : readBeforeSend.mirror.evidence .readsSendsReads {} =
        .ok [.sendsThenReads] := by
      decide +kernel
    obtain ⟨report, mirrored, hreport, hmirrored, -, -, hsteps, hshared⟩ :=
      assess_mirror readBeforeSend .readsSendsReads {}
    have hfindings := findings_of_evidence hevidence hreport
    have hfindings' := findings_of_evidence hevidence' hmirrored
    have hmem : Finding.sendsThenReads ∈ mirrored.findings := by
      rw [hfindings']
      exact List.mem_singleton_self _
    have hcaller : ⟨"LA;", "run"⟩ ∈ report.sequenceCallers := by
      rw [sequenceCallers_of_assess hreport, hfindings]
      exact List.mem_singleton_self _
    have hcaller' : ⟨"LA;", "run"⟩ ∈ mirrored.sequenceCallers := by
      rw [sequenceCallers_of_assess hmirrored]
      exact List.mem_map_of_mem hmem
    have hparameter : ⟨"LA;", "run"⟩ ∈ report.parameterCallers := by
      rw [parameterCallers_of_assess hreport, hfindings]
      exact List.mem_singleton_self _
    exact ⟨report, mirrored, hreport, hmirrored, hmem, (hsteps _ hmem).2, hcaller, hcaller',
      hparameter, (hshared _ hcaller hcaller').mp hparameter⟩

end DalvikRules
