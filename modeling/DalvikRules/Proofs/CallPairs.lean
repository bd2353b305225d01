import DalvikRules.Proofs.CallOrdering
import DalvikRules.Proofs.Findings
import DalvikRules.Proofs.NearestCommonCallers
import DalvikRules.Proofs.PredecessorSearch

/-!
# Common callers take a step towards both methods

Two searches work on the same callers: one widens sets of methods until they overlap, the other
climbs from a method until it meets a caller from below. Each caller that the first one finds is met
by the second one. The step that is taken from the caller stands among its invocations, and it lies
on the way up from the method.
-/

namespace DalvikRules

namespace Program

variable {program : Program}

/-- `step` is how `caller` goes on towards `base`: the caller lies above the base within the search
depth, one of its bodies invokes the step, the step is the base or lies above it, and its name is
among the call sites that are compared for their order. -/
structure StepTowards (program : Program) (maxDepth : Nat) (base caller step : MethodRef) :
    Prop where
  near : ∃ length, 1 ≤ length ∧ length ≤ max 1 maxDepth ∧ program.CallerChain length base caller
  invoked : ∃ body ∈ program.bodies, body.method = caller ∧
    ∃ target ∈ body.targets, target.method.key = step.key
  above : ∃ length, program.CallerChain length base step
  listed : ∃ methods, program.find? caller = some methods ∧
    positionsOf (methods.flatMap Method.callSites) step.name ≠ []

/-- An open chain is a chain of callers. -/
theorem Climb.exists_chain {visited : MethodSet} {base target top : MethodRef}
    (h : program.Climb top visited base target) :
    ∃ length, program.CallerChain length base target := by
  induction h with
  | @here method => exact ⟨0, .here method⟩
  | up _ _ hcall _ ih =>
    obtain ⟨length, hchain⟩ := ih
    exact ⟨length + 1, .up hcall hchain⟩

/-- On a chain that ends at `top` there is a first method that `top` calls directly, and the chain
is open up to this method. -/
theorem CallerChain.exists_climb {length : Nat} {base top : MethodRef}
    (h : program.CallerChain (length + 1) base top) :
    ∃ step, program.Climb top ∅ base step ∧ program.CalledBy step top := by
  induction length generalizing base with
  | zero =>
    cases h with
    | up hcall hchain =>
      cases hchain with
      | here => exact ⟨base, .here Std.ExtTreeSet.not_mem_empty, hcall⟩
  | succ length ih =>
    by_cases hcalled : program.CalledBy base top
    · exact ⟨base, .here Std.ExtTreeSet.not_mem_empty, hcalled⟩
    · cases h with
      | up hcall hchain =>
        obtain ⟨step, hclimb, hstep⟩ := ih hchain
        exact ⟨step, .up Std.ExtTreeSet.not_mem_empty hcalled hcall hclimb, hstep⟩

/-- Above a method there is always a predecessor to be found. -/
theorem predecessors_ne_nil_of_chain {length : Nat} {base top : MethodRef}
    (h : program.CallerChain (length + 1) base top) : program.predecessors base top ≠ [] := by
  obtain ⟨step, hclimb, hcalled⟩ := h.exists_climb
  exact List.ne_nil_of_mem (mem_predecessors.mpr ⟨hclimb, hcalled⟩)

/-- What a body invokes is listed among the call sites of its method. -/
theorem positionsOf_ne_nil {body : Body} {target : CallTarget} {caller : MethodRef} {name : String}
    (hbody : body ∈ program.bodies) (hmethod : body.method = caller)
    (htarget : target ∈ body.targets) (hname : target.name = name) :
    ∃ methods, program.find? caller = some methods ∧
      positionsOf (methods.flatMap Method.callSites) name ≠ [] := by
  obtain ⟨site, hsite, hcallee⟩ := Body.exists_callSite htarget
  refine ⟨_, find?_of_declared hbody (congrArg MethodRef.key hmethod), ?_⟩
  have hlisted : site ∈ ((program.bodies.filter (·.method.key = caller.key)).map
      Method.declared).flatMap Method.callSites := by
    refine List.mem_flatMap.mpr ⟨.declared body, List.mem_map_of_mem ?_, hsite⟩
    simpa using ⟨hbody, congrArg MethodRef.key hmethod⟩
  have hnamed : site.callee.name = name := by
    rw [hcallee]
    exact hname
  exact List.ne_nil_of_mem (mem_positionsOf.mpr ⟨site, hlisted, hnamed, rfl⟩)

/-- A caller within the layers of a search takes a step towards the method that it started from. -/
theorem stepTowards_of_within {layers maxDepth : Nat} {base caller : MethodRef}
    (hlayers : layers ≤ maxDepth - 1) (h : program.Within layers (program.callers base) caller) :
    ∃ step, (program.predecessors base caller).head? = some step ∧
      program.StepTowards maxDepth base caller step := by
  obtain ⟨first, hfirst, length, hlength, hchain⟩ := h
  have hfull : program.CallerChain (length + 1) base caller :=
    .up (calledBy_iff.mpr hfirst) hchain
  cases hlist : program.predecessors base caller with
  | nil => exact absurd hlist (predecessors_ne_nil_of_chain hfull)
  | cons step rest =>
    refine ⟨step, rfl, ?_⟩
    have hmem : step ∈ program.predecessors base caller := by simp [hlist]
    obtain ⟨hclimb, hcalled⟩ := mem_predecessors.mp hmem
    obtain ⟨body, hbody, hmethod, target, htarget, hkey⟩ := mem_callers.mp (calledBy_iff.mp hcalled)
    exact {
      near := ⟨length + 1, by omega, by omega, hfull⟩
      invoked := ⟨body, hbody, hmethod, target, htarget, hkey⟩
      above := hclimb.exists_chain
      listed := positionsOf_ne_nil hbody hmethod htarget (congrArg MethodKey.name hkey) }

/-- Every common caller that the search finds takes a step towards both methods. -/
theorem stepTowards_of_mem_common {maxDepth : Nat} {first second caller : MethodRef}
    {common : MethodSet}
    (hcommon : program.commonCallersFrom 1 maxDepth (program.callers first)
      (program.callers second) = .ok (some common)) (hcaller : caller ∈ common) :
    (∃ step, (program.predecessors first caller).head? = some step ∧
      program.StepTowards maxDepth first caller step) ∧
    ∃ step, (program.predecessors second caller).head? = some step ∧
      program.StepTowards maxDepth second caller step := by
  obtain ⟨layers, hleast, hmem⟩ := commonCallers_eq_some_iff.mp hcommon
  obtain ⟨hfirst, hsecond⟩ := (hmem caller).mp hcaller
  exact ⟨stepTowards_of_within hleast.1.1 hfirst, stepTowards_of_within hleast.1.1 hsecond⟩

end Program

/-- No common caller is left out for want of a predecessor: each one that the search hands on has a
first step towards either method of the rule. And every finding of a report is backed by the
program: its two steps lead from its caller towards the two methods of the rule. -/
theorem Rule.assess_stepTowards (rule : Rule) (program : Program) (config : Config) :
    (∀ common, program.commonCallersFrom 1 config.maxDepth (program.callers rule.first)
        (program.callers rule.second) = .ok (some common) → ∀ caller ∈ common,
      ∃ firstStep secondStep, (program.predecessors rule.first caller).head? = some firstStep ∧
        (program.predecessors rule.second caller).head? = some secondStep ∧
        program.StepTowards config.maxDepth rule.first caller firstStep ∧
        program.StepTowards config.maxDepth rule.second caller secondStep) ∧
    ∀ report, rule.assess program config = .ok report → ∀ finding ∈ report.findings,
      program.StepTowards config.maxDepth rule.first finding.caller finding.first ∧
        program.StepTowards config.maxDepth rule.second finding.caller finding.second := by
  constructor
  · intro common hcommon caller hcaller
    obtain ⟨⟨firstStep, hfirst, hfirstStep⟩, ⟨secondStep, hsecond, hsecondStep⟩⟩ :=
      Program.stepTowards_of_mem_common hcommon hcaller
    exact ⟨firstStep, secondStep, hfirst, hsecond, hfirstStep, hsecondStep⟩
  · intro report hreport finding hfinding
    rcases Rule.findings_of_assess hreport with hnone | hfindings
    · simp [hnone] at hfinding
    · obtain ⟨common, hcommon, caller, hcaller, hshown⟩ := Program.mem_findings hfindings hfinding
      obtain ⟨rfl, hfirst, hsecond, -⟩ := Program.finding?_eq_some_iff.mp hshown
      obtain ⟨⟨firstStep, hfirst', hfirstStep⟩, ⟨secondStep, hsecond', hsecondStep⟩⟩ :=
        Program.stepTowards_of_mem_common hcommon hcaller
      cases hfirst.symm.trans hfirst'
      cases hsecond.symm.trans hsecond'
      exact ⟨hfirstStep, hsecondStep⟩

/-- A program in which `run` calls itself, sends a text directly, and reads one through a helper. -/
def Program.readsThenSends : Program where
  permissions := ∅
  bodies := [
    ⟨⟨"LA;", "read"⟩, "()V", [⟨0, "invoke-virtual", [], some "LS;->query()V"⟩]⟩,
    ⟨⟨"LA;", "run"⟩, "()V", [⟨0, "invoke-static", [], some "LA;->run()V"⟩,
      ⟨2, "invoke-static", [], some "LA;->read()V"⟩,
      ⟨4, "invoke-virtual", [], some "LT;->send()V"⟩]⟩]

/-- A rule about reading before sending that spells one class without its terminator. -/
def Rule.readBeforeSend : Rule :=
  ⟨"read before send", [], ⟨"LS", "query"⟩, ⟨"LT;", "send"⟩, 1, .ofScore 1, none⟩

/-- What `run` shows: its steps are the helper and the second method of the rule itself. -/
def Finding.readsThenSends : Finding :=
  ⟨⟨"LA;", "run"⟩, ⟨"LA;", "read"⟩, ⟨"LT;", "send"⟩, false⟩

theorem Rule.assess_stepTowards_readBeforeSend :
    ∃ report, Rule.readBeforeSend.assess .readsThenSends {} = .ok report ∧
      report.findings = [.readsThenSends] ∧
      Program.readsThenSends.StepTowards 3 ⟨"LS", "query"⟩ ⟨"LA;", "run"⟩ ⟨"LA;", "read"⟩ ∧
      Program.readsThenSends.StepTowards 3 ⟨"LT;", "send"⟩ ⟨"LA;", "run"⟩ ⟨"LT;", "send"⟩ := by
  have hevidence : Rule.readBeforeSend.evidence .readsThenSends {} = .ok [.readsThenSends] := by
    decide +kernel
  obtain ⟨report, hreport, hlisted⟩ : ∃ report,
      Rule.readBeforeSend.assess .readsThenSends {} = .ok report ∧
        report.findings = [.readsThenSends] :=
    ⟨_, Rule.assess_of_evidence hevidence, rfl⟩
  have hmem : Finding.readsThenSends ∈ report.findings := by
    rw [hlisted]
    exact List.mem_singleton_self _
  exact ⟨report, hreport, hlisted,
    (Rule.assess_stepTowards _ _ _).2 report hreport .readsThenSends hmem⟩

end DalvikRules
