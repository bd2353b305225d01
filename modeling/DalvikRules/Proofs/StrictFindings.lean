import DalvikRules.Proofs.BodyOrder
import DalvikRules.Proofs.CallPairs
import DalvikRules.Proofs.ReportCoherence

/-!
# What a strict finding shows

The two steps of a finding are picked by a search among callers, and then their order is decided by
names. In the strict reading that decision carries over to the steps themselves: the caller invokes
both of them, and whatever bears the name of the first stands before whatever bears the name of the
second, so no call of a namesake can make up for a missing one.
-/

namespace DalvikRules

namespace Program

variable {program : Program} {maxDepth : Nat}

/-- The bodies of a caller invoke both steps of a finding, by class and name, and every call of the
first step in any of them stands at a smaller offset than every call of the second. -/
structure StrictlyOrdered (program : Program) (finding : Finding) : Prop where
  callsFirst : ∃ body ∈ program.bodiesOf finding.caller, body.offsetsOf finding.first ≠ []
  callsSecond : ∃ body ∈ program.bodiesOf finding.caller, body.offsetsOf finding.second ≠ []
  ordered : ∀ body ∈ program.bodiesOf finding.caller,
    ∀ other ∈ program.bodiesOf finding.caller, ∀ offset ∈ body.offsetsOf finding.first,
      ∀ later ∈ other.offsetsOf finding.second, offset < later
  names : finding.first.name ≠ finding.second.name

/-- A step that a caller takes is invoked in one of its bodies. -/
theorem StepTowards.exists_offset {base caller step : MethodRef}
    (h : program.StepTowards maxDepth base caller step) :
    ∃ body ∈ program.bodiesOf caller, body.offsetsOf step ≠ [] := by
  obtain ⟨body, hbody, hmethod, hinvoked⟩ := h.invoked
  have hmem : body ∈ program.bodiesOf caller :=
    mem_bodiesOf.mpr ⟨hbody, congrArg MethodRef.key hmethod⟩
  exact ⟨body, hmem, Body.offsetsOf_ne_nil_iff.mpr hinvoked⟩

/-- Both steps of a finding are taken by its caller, and they are called in order. -/
theorem steps_of_mem_findings {config : Config} {first second : MethodRef}
    {findings : List Finding} {finding : Finding}
    (h : program.findings config first second = .ok findings) (hmem : finding ∈ findings) :
    program.StepTowards config.maxDepth first finding.caller finding.first ∧
      program.StepTowards config.maxDepth second finding.caller finding.second ∧
      program.callsInOrder config.mode finding.caller finding.first finding.second = true := by
  obtain ⟨common, hcommon, caller, hcaller, hshown⟩ := mem_findings h hmem
  obtain ⟨rfl, hfirst, hsecond, horder, -⟩ := finding?_eq_some_iff.mp hshown
  obtain ⟨⟨firstStep, hfirst', hfirstStep⟩, ⟨secondStep, hsecond', hsecondStep⟩⟩ :=
    stepTowards_of_mem_common hcommon hcaller
  cases hfirst.symm.trans hfirst'
  cases hsecond.symm.trans hsecond'
  exact ⟨hfirstStep, hsecondStep, horder⟩

/-- If a caller invokes two steps and calls their names in strict order, it calls the steps in
order. -/
theorem strictlyOrdered_of_callsInOrder {finding : Finding}
    (hfirst : ∃ body ∈ program.bodiesOf finding.caller, body.offsetsOf finding.first ≠ [])
    (hsecond : ∃ body ∈ program.bodiesOf finding.caller, body.offsetsOf finding.second ≠ [])
    (horder : program.callsInOrder .strict finding.caller finding.first finding.second = true) :
    program.StrictlyOrdered finding := by
  obtain ⟨-, -, hall⟩ := callsInOrder_strict_iff.mp horder
  constructor
  case callsFirst => exact hfirst
  case callsSecond => exact hsecond
  case ordered =>
    intro body hbody other hother offset hoffset later hlater
    exact hall body hbody other hother offset (Body.mem_positionsOf_of_mem_offsetsOf hoffset)
      later (Body.mem_positionsOf_of_mem_offsetsOf hlater)
  case names =>
    intro hname
    obtain ⟨body, hbody, hcalled⟩ := hfirst
    obtain ⟨offset, hoffset⟩ := List.exists_mem_of_ne_nil _ hcalled
    -- Under one name a call of the first step would have to precede itself.
    have hposition := Body.mem_positionsOf_of_mem_offsetsOf hoffset
    exact Nat.lt_irrefl offset
      (hall body hbody body hbody offset hposition offset (hname ▸ hposition))

end Program

namespace Rule

/-- In the strict reading every finding of a report is genuine. The bodies of its caller invoke the
two steps that the finding names, all calls of the first step stand before all calls of the second,
and the two steps do not share a name. -/
theorem assess_strictlyOrdered (rule : Rule) (program : Program) (maxDepth : Nat) :
    ∃ report, rule.assess program ⟨maxDepth, .strict⟩ = .ok report ∧
      ∀ finding ∈ report.findings, program.StrictlyOrdered finding := by
  obtain ⟨report, hreport⟩ := rule.exists_report program ⟨maxDepth, .strict⟩
  refine ⟨report, hreport, fun finding hfinding => ?_⟩
  rcases findings_of_assess hreport with hnone | hfindings
  · simp [hnone] at hfinding
  · obtain ⟨hfirst, hsecond, horder⟩ := Program.steps_of_mem_findings hfindings hfinding
    exact Program.strictlyOrdered_of_callsInOrder hfirst.exists_offset hsecond.exists_offset horder

theorem assess_strictlyOrdered_readBeforeSend :
    ∃ report, readBeforeSend.assess .readsThenSends ⟨3, .strict⟩ = .ok report ∧
      .readsThenSends ∈ report.findings ∧
      Program.readsThenSends.StrictlyOrdered .readsThenSends := by
  have hevidence : readBeforeSend.evidence .readsThenSends ⟨3, .strict⟩ =
      .ok [.readsThenSends] := by
    decide +kernel
  obtain ⟨report, hreport, hgenuine⟩ :=
    assess_strictlyOrdered readBeforeSend .readsThenSends 3
  have hmem : Finding.readsThenSends ∈ report.findings := by
    rw [findings_of_evidence hevidence hreport]
    exact List.mem_singleton_self _
  exact ⟨report, hreport, hmem, hgenuine .readsThenSends hmem⟩

end Rule

end DalvikRules
