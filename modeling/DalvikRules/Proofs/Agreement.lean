import DalvikRules.Proofs.CallOrdering
import DalvikRules.Proofs.Findings
import DalvikRules.Proofs.NearestCommonCallers
import DalvikRules.Proofs.PredecessorSearch
import Mathlib.Data.List.Basic

/-!
# Programs that agree on some methods

An assessment climbs from the two methods of a rule to their callers, and never asks for anything
else. Two programs therefore give a rule the same report if they cannot be told apart on a set of
methods that holds the two methods of the rule and all callers of its members. Of the bodies that
mention such a method only the set matters, not their order and not how often one is listed.
-/

namespace DalvikRules

/-- A body mentions a key if it is declared with it or invokes it. -/
def Body.Mentions (body : Body) (key : MethodKey) : Prop :=
  body.method.key = key ∨ ∃ target ∈ body.targets, target.method.key = key

namespace Program

/-- Two programs agree on a set of methods if the first one has no caller that leads out of the set
and both have the same bodies that mention a method of the set. -/
structure AgreeOn (program other : Program) (region : Set MethodRef) : Prop where
  closed : ∀ method ∈ region, ∀ caller, program.CalledBy method caller → caller ∈ region
  bodies : ∀ method ∈ region, ∀ body, body.Mentions method.key →
    (body ∈ program.bodies ↔ body ∈ other.bodies)

namespace AgreeOn

variable {program other : Program} {region : Set MethodRef}

section Queries

variable {method : MethodRef}

theorem callers_eq (h : program.AgreeOn other region) (hmethod : method ∈ region) :
    program.callers method = other.callers method := by
  refine Std.ExtTreeSet.ext_mem fun caller => ?_
  rw [mem_callers, mem_callers]
  exact exists_congr fun body =>
    and_congr_left fun hinvokes => h.bodies method hmethod body (.inr hinvokes.2)

theorem mem_bodiesOf_iff (h : program.AgreeOn other region) (hmethod : method ∈ region)
    (body : Body) : body ∈ program.bodiesOf method ↔ body ∈ other.bodiesOf method := by
  rw [mem_bodiesOf, mem_bodiesOf]
  exact and_congr_left fun hkey => h.bodies method hmethod body (.inl hkey)

theorem isSome_find?_eq (h : program.AgreeOn other region) (hmethod : method ∈ region) :
    (program.find? method).isSome = (other.find? method).isSome := by
  rw [Bool.eq_iff_iff, isSome_find?_iff, isSome_find?_iff]
  exact exists_congr fun body =>
    and_congr_left fun hmentions => h.bodies method hmethod body hmentions

theorem callsInOrder_eq (h : program.AgreeOn other region) (hmethod : method ∈ region)
    (mode : SequenceMode) (first second : MethodRef) :
    program.callsInOrder mode method first second =
      other.callsInOrder mode method first second := by
  rw [Program.callsInOrder_eq, Program.callsInOrder_eq]
  refine callsInOrder_congr fun site _ => ?_
  simp only [List.mem_flatMap, h.mem_bodiesOf_iff hmethod]

theorem sharesValue_eq (h : program.AgreeOn other region) (hmethod : method ∈ region)
    (first second : String) :
    program.sharesValue method first second = other.sharesValue method first second := by
  rw [Bool.eq_iff_iff, sharesValue, sharesValue, List.any_eq_true, List.any_eq_true]
  simp only [h.mem_bodiesOf_iff hmethod]

end Queries

/-! ### The two searches -/

theorem widen_eq {methods : MethodSet} (h : program.AgreeOn other region)
    (hmethods : ∀ method ∈ methods, method ∈ region) :
    program.widen methods = other.widen methods := by
  refine Std.ExtTreeSet.ext_mem fun caller => ?_
  simp only [mem_widen, calledBy_iff]
  refine or_congr_right (exists_congr fun method => and_congr_right fun hmethod => ?_)
  rw [h.callers_eq (hmethods method hmethod)]

theorem mem_of_mem_widen {methods : MethodSet} (h : program.AgreeOn other region)
    (hmethods : ∀ method ∈ methods, method ∈ region) :
    ∀ caller ∈ program.widen methods, caller ∈ region := by
  intro caller hcaller
  rcases mem_widen.mp hcaller with hmethod | ⟨method, hmethod, hcall⟩
  · exact hmethods caller hmethod
  · exact h.closed method (hmethods method hmethod) caller hcall

theorem commonCallers_eq {left right : MethodSet} (h : program.AgreeOn other region)
    (rounds : Nat) (hleft : ∀ method ∈ left, method ∈ region)
    (hright : ∀ method ∈ right, method ∈ region) :
    program.commonCallers rounds left right = other.commonCallers rounds left right := by
  induction rounds generalizing left right with
  | zero => rw [commonCallers, commonCallers]
  | succ rounds ih =>
    have hwider := ih (h.mem_of_mem_widen hleft) (h.mem_of_mem_widen hright)
    rw [commonCallers, commonCallers, ← h.widen_eq hleft, ← h.widen_eq hright]
    simp only [hwider]

theorem searchFrom_eq {stack : List MethodRef} (h : program.AgreeOn other region)
    (top : MethodRef) (search : Search) (hstack : ∀ method ∈ stack, method ∈ region) :
    program.searchFrom top stack search = other.searchFrom top stack search := by
  induction stack, search using searchFrom.induct program top with
  | case1 search => rw [searchFrom_nil, searchFrom_nil]
  | case2 method rest search hmem ih =>
    obtain ⟨-, hrest⟩ := List.forall_mem_cons.mp hstack
    rw [searchFrom_cons_of_mem hmem, searchFrom_cons_of_mem hmem, ih hrest]
  | case3 method rest search hfresh hcalled ih =>
    obtain ⟨hmethod, hrest⟩ := List.forall_mem_cons.mp hstack
    have hsame := h.callers_eq hmethod
    rw [searchFrom_cons_of_called hfresh hcalled,
      searchFrom_cons_of_called hfresh (hsame ▸ hcalled), ih hrest]
  | case4 method rest search hfresh hopen ih =>
    obtain ⟨hmethod, hrest⟩ := List.forall_mem_cons.mp hstack
    have hsame := h.callers_eq hmethod
    have hcallers : ∀ caller ∈ (program.callers method).toList ++ rest, caller ∈ region :=
      List.forall_mem_append.mpr ⟨fun caller hcaller =>
        h.closed method hmethod caller (mem_toList_callers.mp hcaller), hrest⟩
    rw [searchFrom_cons_of_not_called hfresh hopen,
      searchFrom_cons_of_not_called hfresh (hsame ▸ hopen), ← hsame, ih hcallers]

theorem predecessors_eq {base : MethodRef} (h : program.AgreeOn other region)
    (hbase : base ∈ region) (top : MethodRef) :
    program.predecessors base top = other.predecessors base top := by
  rw [predecessors, predecessors, h.searchFrom_eq top {} (by simpa using hbase)]

/-! ### Findings -/

variable {first second : MethodRef}

theorem finding?_eq {caller : MethodRef} (h : program.AgreeOn other region) (mode : SequenceMode)
    (hfirst : first ∈ region) (hsecond : second ∈ region) (hcaller : caller ∈ region) :
    program.finding? mode first second caller = other.finding? mode first second caller := by
  simp only [finding?, h.predecessors_eq hfirst, h.predecessors_eq hsecond,
    h.callsInOrder_eq hcaller, h.sharesValue_eq hcaller]

/-- The search for common callers does not leave the set that the programs agree on. -/
theorem mem_of_mem_common {maxDepth : Nat} {caller : MethodRef} {common : MethodSet}
    (h : program.AgreeOn other region) (hfirst : first ∈ region)
    (hcommon : program.commonCallersFrom 1 maxDepth (program.callers first)
      (program.callers second) = .ok (some common)) (hcaller : caller ∈ common) :
    caller ∈ region := by
  obtain ⟨layers, -, hmem⟩ := commonCallers_eq_some_iff.mp hcommon
  obtain ⟨base, hbase, length, -, hchain⟩ := ((hmem caller).mp hcaller).1
  exact hchain.mem_of_closed h.closed (h.closed first hfirst base (calledBy_iff.mpr hbase))

theorem findings_eq (h : program.AgreeOn other region) (config : Config)
    (hfirst : first ∈ region) (hsecond : second ∈ region) :
    program.findings config first second = other.findings config first second := by
  have hcallers {method : MethodRef} (hmethod : method ∈ region) :
      ∀ caller ∈ program.callers method, caller ∈ region :=
    fun caller hcaller => h.closed method hmethod caller (calledBy_iff.mpr hcaller)
  have hsearch : program.commonCallersFrom 1 config.maxDepth (program.callers first)
      (program.callers second) = other.commonCallersFrom 1 config.maxDepth (program.callers first)
      (program.callers second) :=
    h.commonCallers_eq _ (hcallers hfirst) (hcallers hsecond)
  rw [findings, findings, ← h.callers_eq hfirst, ← h.callers_eq hsecond, ← hsearch]
  cases hcommon : program.commonCallersFrom 1 config.maxDepth (program.callers first)
      (program.callers second) with
  | error error => rfl
  | ok result =>
    cases result with
    | none => rfl
    | some common =>
      have hshown : common.toList.filterMap (program.finding? config.mode first second) =
          common.toList.filterMap (other.finding? config.mode first second) :=
        List.filterMap_congr fun caller hcaller => h.finding?_eq _ hfirst hsecond <|
          h.mem_of_mem_common hfirst hcommon (Std.ExtTreeSet.mem_toList.mp hcaller)
      simp only [Except.map, hshown]

end AgreeOn

end Program

/-- Two programs that grant a rule its permissions alike, and agree on its two methods and all that
leads up from them, give it the same report. -/
theorem Rule.assess_eq_of_agreeOn {rule : Rule} {program other : Program} {region : Set MethodRef}
    (hgranted : rule.granted program = rule.granted other)
    (h : program.AgreeOn other region) (hfirst : rule.first ∈ region)
    (hsecond : rule.second ∈ region) (config : Config) :
    rule.assess program config = rule.assess other config := by
  have hchecklist (findings : List Finding) :
      rule.checklist program findings = rule.checklist other findings := by
    simp only [checklist, hgranted, h.isSome_find?_eq hfirst, h.isSome_find?_eq hsecond]
  have hevidence : rule.evidence program config = rule.evidence other config := by
    rw [evidence, evidence, hchecklist, h.findings_eq config hfirst hsecond]
  have hreport : rule.reportOn program = rule.reportOn other := by
    funext findings
    simp only [reportOn, hchecklist]
  rw [assess_eq, assess_eq, hevidence, hreport]

end DalvikRules
