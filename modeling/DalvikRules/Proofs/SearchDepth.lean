import DalvikRules.Proofs.CallPairs
import DalvikRules.Proofs.ReportCoherence

/-!
# Searching deeper

The search for common callers answers with the nearest ones, so what it finds within some depth it
finds within every greater depth as well. A greater depth can change a report only where the search
came to nothing, and there it can only add to what was passed.
-/

namespace DalvikRules

namespace Program

variable {program : Program} {first second : MethodRef} {mode : SequenceMode}

/-- The least number of layers that makes two sets overlap stays the least one if more rounds are
allowed. -/
theorem isLeast_meetings_of_le {left right : MethodSet} {rounds more layers : Nat}
    (h : rounds ≤ more) (hleast : IsLeast (program.meetings left right rounds) layers) :
    IsLeast (program.meetings left right more) layers := by
  obtain ⟨⟨hlayers, hmeet⟩, hlower⟩ := hleast
  refine ⟨⟨by omega, hmeet⟩, fun other hother => ?_⟩
  by_cases hwithin : other ≤ rounds
  · exact hlower ⟨hwithin, hother.2⟩
  · omega

/-- Common callers that are found are found again by every search with more rounds. -/
theorem commonCallers_of_le {left right common : MethodSet} {rounds more : Nat}
    (h : rounds ≤ more)
    (hfound : program.commonCallers rounds left right = .ok (some common)) :
    program.commonCallers more left right = .ok (some common) := by
  obtain ⟨layers, hleast, hmem⟩ := commonCallers_eq_some_iff.mp hfound
  exact commonCallers_eq_some_iff.mpr ⟨layers, isLeast_meetings_of_le h hleast, hmem⟩

/-- A deeper search shows the same findings, unless the shallower one shows none. -/
theorem findings_of_le {depth deeper : Nat} (h : depth ≤ deeper) :
    program.findings ⟨deeper, mode⟩ first second = program.findings ⟨depth, mode⟩ first second ∨
      program.findings ⟨depth, mode⟩ first second = .ok [] := by
  rw [findings, findings]
  by_cases hcandidates :
      ((program.callers first).isEmpty || (program.callers second).isEmpty) = true
  · right
    exact if_pos hcandidates
  · rw [if_neg hcandidates, if_neg hcandidates]
    cases hsearch : program.commonCallersFrom 1 depth (program.callers first)
        (program.callers second) with
    | error error =>
      have hempty := (commonCallers_eq_error_iff.mp hsearch).1
      exact absurd (isEmpty_or_iff.mpr hempty) hcandidates
    | ok result =>
      cases result with
      | none => exact .inr rfl
      | some common =>
        left
        have hdeeper : program.commonCallersFrom 1 deeper (program.callers first)
            (program.callers second) = .ok (some common) :=
          commonCallers_of_le (by omega) hsearch
        rw [hdeeper]

end Program

/-- A report of exactly three passed levels, without any evidence. -/
structure Report.StopsAtCombination (report : Report) : Prop where
  levels : ∀ level, report.checklist.passed level = true ↔ level ∈ Level.all.take 3
  findings : report.findings = []
  sequenceCallers : report.sequenceCallers = []
  parameterCallers : report.parameterCallers = []

namespace Rule

variable {rule : Rule} {program : Program}

/-- Once the first three levels are passed, the findings decide on the others. -/
theorem checklist_of_apiCombination (h : (rule.checklist program []).apiCombination = true)
    (findings : List Finding) :
    rule.checklist program findings =
      ⟨true, true, true, !findings.isEmpty, findings.any Finding.sharesValue⟩ := by
  simp only [checklist, Bool.and_eq_true] at h
  obtain ⟨⟨hgranted, hfirst⟩, hsecond⟩ := h
  simp only [checklist, hgranted, hfirst, hsecond, Bool.and_self]

theorem passed_reportOn (h : (rule.checklist program []).apiCombination = true)
    (findings : List Finding) {level : Level} (hlevel : level ∈ Level.all.take 3) :
    (rule.reportOn program findings).checklist.passed level = true := by
  rw [reportOn, checklist_of_apiCombination h]
  cases level with
  | permission | apiUsage | apiCombination => rfl
  | sequence | parameter => simp [Level.all] at hlevel

theorem stopsAtCombination_reportOn (h : (rule.checklist program []).apiCombination = true) :
    (rule.reportOn program []).StopsAtCombination := by
  have hchecklist : (rule.reportOn program []).checklist = ⟨true, true, true, false, false⟩ :=
    checklist_of_apiCombination h []
  constructor
  case levels =>
    intro level
    rw [hchecklist]
    cases level <;> decide
  case findings => rfl
  case sequenceCallers => rfl
  case parameterCallers => rfl

/-- A deeper search leaves the findings as they are, unless there were none although the first
three levels were passed. -/
theorem exists_evidence_of_le (rule : Rule) (program : Program) (mode : SequenceMode)
    {depth deeper : Nat} (h : depth ≤ deeper) :
    ∃ findings deepened, rule.evidence program ⟨depth, mode⟩ = .ok findings ∧
      rule.evidence program ⟨deeper, mode⟩ = .ok deepened ∧
      (deepened = findings ∨
        findings = [] ∧ (rule.checklist program []).apiCombination = true) := by
  obtain ⟨findings, hevidence, -⟩ := rule.exists_evidence program ⟨depth, mode⟩
  obtain ⟨deepened, hdeeper, -⟩ := rule.exists_evidence program ⟨deeper, mode⟩
  refine ⟨findings, deepened, hevidence, hdeeper, ?_⟩
  by_cases hlevel : (rule.checklist program []).apiCombination = true
  · rw [evidence, if_pos hlevel] at hevidence hdeeper
    rcases Program.findings_of_le h with hsame | hnone
    · rw [hevidence, hdeeper] at hsame
      exact .inl (Except.ok.inj hsame)
    · rw [hevidence] at hnone
      exact .inr ⟨Except.ok.inj hnone, hlevel⟩
  · rw [evidence, if_neg hlevel] at hevidence hdeeper
    cases hevidence
    cases hdeeper
    exact .inl rfl

/-- A greater search depth is conservative. The report stays the same, unless the shallower search
ended with exactly three passed levels and without evidence; then the deeper one passes these three
levels as well. So the confidence never falls as the depth grows. The depths 0 and 1 make no
difference, since the direct callers are always compared. -/
theorem assess_of_deeper (rule : Rule) (program : Program) (mode : SequenceMode)
    {depth deeper : Nat} (h : depth ≤ deeper) :
    ∃ report deepened, rule.assess program ⟨depth, mode⟩ = .ok report ∧
      rule.assess program ⟨deeper, mode⟩ = .ok deepened ∧
      (deepened = report ∨ report.StopsAtCombination ∧
        ∀ level ∈ Level.all.take 3, deepened.checklist.passed level = true) ∧
      report.confidence ≤ deepened.confidence ∧
      rule.assess program ⟨0, mode⟩ = rule.assess program ⟨1, mode⟩ := by
  obtain ⟨findings, deepened, hevidence, hdeeper, hcases⟩ :=
    rule.exists_evidence_of_le program mode h
  have hreports : rule.reportOn program deepened = rule.reportOn program findings ∨
      (rule.reportOn program findings).StopsAtCombination ∧ ∀ level ∈ Level.all.take 3,
        (rule.reportOn program deepened).checklist.passed level = true := by
    rcases hcases with rfl | ⟨rfl, hlevel⟩
    · exact .inl rfl
    · exact .inr ⟨stopsAtCombination_reportOn hlevel, fun _ => passed_reportOn hlevel deepened⟩
  have hconfidence : (rule.reportOn program findings).confidence ≤
      (rule.reportOn program deepened).confidence := by
    rcases hreports with hsame | ⟨hstops, hpassed⟩
    · rw [hsame]
    · exact Checklist.confidence_le fun level hlevel =>
        hpassed level ((hstops.levels level).mp hlevel)
  exact ⟨_, _, assess_of_evidence hevidence, assess_of_evidence hdeeper, hreports, hconfidence, rfl⟩

/-- One layer of callers is not enough for `run` to be found, and a second one is. -/
theorem assess_of_deeper_readBeforeSend :
    1 ≤ 2 ∧ ∃ report deepened,
      readBeforeSend.assess .readsThenSends ⟨1, .loose⟩ = .ok report ∧
      readBeforeSend.assess .readsThenSends ⟨2, .loose⟩ = .ok deepened ∧
      report.StopsAtCombination ∧
      (∀ level ∈ Level.all.take 3, deepened.checklist.passed level = true) ∧
      deepened.findings = [.readsThenSends] ∧
      report.confidence ≤ deepened.confidence ∧
      readBeforeSend.assess .readsThenSends ⟨0, .loose⟩ =
        readBeforeSend.assess .readsThenSends ⟨1, .loose⟩ := by
  have hevidence : readBeforeSend.evidence .readsThenSends ⟨1, .loose⟩ = .ok [] := by
    decide +kernel
  have hdeeper : readBeforeSend.evidence .readsThenSends ⟨2, .loose⟩ = .ok [.readsThenSends] := by
    decide +kernel
  obtain ⟨report, deepened, hreport, hdeepened, hcases, hconfidence, hzero⟩ :=
    assess_of_deeper readBeforeSend .readsThenSends .loose (show 1 ≤ 2 by decide)
  have hnone := findings_of_evidence hevidence hreport
  have hsome := findings_of_evidence hdeeper hdeepened
  rcases hcases with rfl | ⟨hstops, hpassed⟩
  · rw [hnone] at hsome
    cases hsome
  · exact ⟨by decide, report, deepened, hreport, hdeepened, hstops, hpassed, hsome, hconfidence,
      hzero⟩

end Rule

end DalvikRules
