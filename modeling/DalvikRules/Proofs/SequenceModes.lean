import DalvikRules.Proofs.CallOrdering
import DalvikRules.Proofs.ReportCoherence

/-!
# The two sequence modes

Both readings of the order of two calls are put to the same callers and the same steps, and the
strict one grants an order only where the loose one grants it too. So the strict report of a rule
keeps some of the findings of the loose report, as they stand, and passes no level that the loose
one does not pass.
-/

namespace DalvikRules

/-- Whatever is in order in the strict reading is in order in the loose one: if the last call of the
first name precedes the first call of the second, then some call precedes another. -/
theorem callsInOrder_loose_of_strict {sites : List CallSite} {first second : String}
    (h : callsInOrder .strict sites first second = true) :
    callsInOrder .loose sites first second = true := by
  have hsome := exists_lt_of_callsInOrder h
  exact precedes_min?_max?.mpr hsome

namespace Program

variable {program : Program} {first second : MethodRef}

/-- Whether the two steps of a finding are called in strict order. -/
def strictOrder (program : Program) (finding : Finding) : Bool :=
  program.callsInOrder .strict finding.caller finding.first finding.second

theorem loose_of_strictOrder {finding : Finding} (h : program.strictOrder finding = true) :
    program.callsInOrder .loose finding.caller finding.first finding.second = true := by
  rw [strictOrder, callsInOrder_eq] at h
  rw [callsInOrder_eq]
  exact callsInOrder_loose_of_strict h

/-- In the strict reading a caller shows what it shows in the loose one, if that is in strict
order. -/
theorem finding?_strict_eq (program : Program) (first second caller : MethodRef) :
    program.finding? .strict first second caller =
      (program.finding? .loose first second caller).filter program.strictOrder := by
  apply Option.ext
  intro finding
  rw [Option.filter_eq_some_iff, finding?_eq_some_iff, finding?_eq_some_iff]
  constructor
  · rintro ⟨rfl, hfirst, hsecond, hstrict, hshares⟩
    have hloose := loose_of_strictOrder hstrict
    exact ⟨⟨rfl, hfirst, hsecond, hloose, hshares⟩, hstrict⟩
  · rintro ⟨⟨rfl, hfirst, hsecond, -, hshares⟩, hstrict⟩
    exact ⟨rfl, hfirst, hsecond, hstrict, hshares⟩

end Program

/-- A report refines another one if it passes no further level and lists no further evidence, and
lists what it lists in the same order. -/
structure Report.Refines (report other : Report) : Prop where
  findings : report.findings.Sublist other.findings
  sequenceCallers : report.sequenceCallers.Sublist other.sequenceCallers
  parameterCallers : report.parameterCallers.Sublist other.parameterCallers
  levels : ∀ level, report.checklist.passed level = true → other.checklist.passed level = true
  confidence : report.confidence ≤ other.confidence

namespace Rule

variable {rule : Rule} {program : Program}

/-- More findings pass more levels: the first three levels do not depend on them, and the others ask
for some finding of a kind. -/
theorem passed_of_sublist {fewer findings : List Finding} (h : fewer.Sublist findings)
    (level : Level) (hpassed : (rule.checklist program fewer).passed level = true) :
    (rule.checklist program findings).passed level = true := by
  cases level with
  | permission | apiUsage | apiCombination => exact hpassed
  | sequence =>
    simp only [Checklist.passed, checklist, Bool.not_eq_true', List.isEmpty_eq_false_iff] at *
    rintro rfl
    apply hpassed
    exact List.sublist_nil.mp h
  | parameter =>
    simp only [Checklist.passed, checklist, List.any_eq_true] at *
    obtain ⟨finding, hfinding, hshares⟩ := hpassed
    exact ⟨finding, h.subset hfinding, hshares⟩

/-- A report on some of the findings refines the report on all of them. -/
theorem reportOn_refines {fewer findings : List Finding} (h : fewer.Sublist findings) :
    (rule.reportOn program fewer).Refines (rule.reportOn program findings) := by
  have hlevels : ∀ level, (rule.checklist program fewer).passed level = true →
      (rule.checklist program findings).passed level = true := passed_of_sublist h
  constructor
  case findings => exact h
  case sequenceCallers => exact h.map Finding.caller
  case parameterCallers => exact (h.filter Finding.sharesValue).map Finding.caller
  case levels => exact hlevels
  case confidence => exact Checklist.confidence_le hlevels

/-- The strict reading refines the loose one. At every search depth the strict report of a rule
lists exactly those findings of the loose report whose steps are called in strict order, the callers
follow the findings, and every level that it passes is passed by the loose report as well. -/
theorem assess_strict_refines (rule : Rule) (program : Program) (maxDepth : Nat) :
    ∃ strict loose, rule.assess program ⟨maxDepth, .strict⟩ = .ok strict ∧
      rule.assess program ⟨maxDepth, .loose⟩ = .ok loose ∧
      strict.Refines loose ∧
      strict.findings = loose.findings.filter program.strictOrder := by
  let callers := (rule.examined program maxDepth).toList
  let shown (mode : SequenceMode) : List Finding :=
    callers.filterMap (program.finding? mode rule.first rule.second)
  have hevidence (mode : SequenceMode) :
      rule.evidence program ⟨maxDepth, mode⟩ = .ok (shown mode) :=
    rule.evidence_eq program ⟨maxDepth, mode⟩
  have hkept : shown .strict = (shown .loose).filter program.strictOrder := by
    have hcaller : program.finding? .strict rule.first rule.second = fun caller =>
        (program.finding? .loose rule.first rule.second caller).filter program.strictOrder :=
      funext fun caller => program.finding?_strict_eq rule.first rule.second caller
    simp only [shown, List.filter_filterMap, hcaller]
  have hsublist : (shown .strict).Sublist (shown .loose) := by
    rw [hkept]
    exact List.filter_sublist
  exact ⟨_, _, assess_of_evidence (hevidence .strict), assess_of_evidence (hevidence .loose),
    reportOn_refines hsublist, hkept⟩

end Rule

end DalvikRules
