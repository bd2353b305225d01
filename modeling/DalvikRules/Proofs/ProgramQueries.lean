import DalvikRules.Program
import Mathlib.Data.List.Basic
import Mathlib.Tactic.ByContra

/-!
# What a program answers

The questions of a program are answered from an index. Here the answers are stated in terms of the
bodies alone: which methods are known, which bodies a known method has, and who calls it.
-/

namespace DalvikRules

namespace MethodSet

theorem isEmpty_eq_false_iff {methods : MethodSet} :
    methods.isEmpty = false ↔ ∃ method, method ∈ methods := by
  rw [Std.ExtTreeSet.isEmpty_eq_false_iff]
  constructor
  · intro h
    by_contra hnone
    refine h (Std.ExtTreeSet.ext_mem fun method => ?_)
    exact iff_of_false (fun hmem => hnone ⟨method, hmem⟩) Std.ExtTreeSet.not_mem_empty
  · rintro ⟨method, hmem⟩ rfl
    exact Std.ExtTreeSet.not_mem_empty hmem

theorem toList_empty : (∅ : MethodSet).toList = [] :=
  Std.ExtTreeSet.toList_eq_nil_iff.mpr rfl

theorem mem_insert {methods : MethodSet} {method other : MethodRef} :
    other ∈ methods.insert method ↔ other = method ∨ other ∈ methods := by
  rw [Std.ExtTreeSet.mem_insert, Std.LawfulEqOrd.compare_eq_iff_eq, eq_comm]

/-- A set that contains another one of the same size is that set. -/
theorem eq_of_subset_of_size_eq {smaller larger : MethodSet}
    (hsubset : ∀ method ∈ smaller, method ∈ larger) (hsize : larger.size = smaller.size) :
    larger = smaller := by
  have hinter : (larger ∩ smaller).size = smaller.size :=
    Std.ExtTreeSet.size_inter_eq_size_right hsubset
  have hdiff : larger \ smaller = ∅ := by
    have hsum : (larger \ smaller).size + (larger ∩ smaller).size = larger.size :=
      Std.ExtTreeSet.size_diff_add_size_inter_eq_size_left
    rw [Std.ExtTreeSet.eq_empty_iff_size_eq_zero]
    omega
  refine Std.ExtTreeSet.ext_mem fun method => ⟨fun h => ?_, hsubset method⟩
  by_contra hnot
  have hmem : method ∈ larger \ smaller := Std.ExtTreeSet.mem_diff_iff.mpr ⟨h, hnot⟩
  rw [hdiff] at hmem
  exact Std.ExtTreeSet.not_mem_empty hmem

end MethodSet

namespace Body

variable {body : Body}

/-- The call sites of a body name the methods of its targets, in their order. -/
theorem map_callee_callSites (body : Body) :
    body.callSites.map CallSite.callee = body.targets.map CallTarget.method := by
  rw [callSites, targets, List.map_filterMap, List.map_filterMap]
  apply List.filterMap_congr
  intro inst _
  cases inst.callTarget? <;> rfl

/-- A target of a body is called at some site. -/
theorem exists_callSite {target : CallTarget} (h : target ∈ body.targets) :
    ∃ site ∈ body.callSites, site.callee = target.method := by
  have hmem : target.method ∈ body.targets.map CallTarget.method := List.mem_map_of_mem h
  rw [← body.map_callee_callSites] at hmem
  exact List.mem_map.mp hmem

/-- A body has a call site for a key precisely if it has a target with that key. -/
theorem exists_callSite_iff {key : MethodKey} :
    (∃ site ∈ body.callSites, site.callee.key = key) ↔
      ∃ target ∈ body.targets, target.method.key = key := by
  have hcallees : (∃ callee ∈ body.callSites.map CallSite.callee, callee.key = key) ↔
      ∃ callee ∈ body.targets.map CallTarget.method, callee.key = key := by
    rw [body.map_callee_callSites]
  simpa only [List.mem_map, exists_exists_and_eq_and] using hcallees

end Body

namespace Program

variable {program : Program}

/-- `caller` is among the direct callers that the program names for `method`. -/
def CalledBy (program : Program) (method caller : MethodRef) : Prop :=
  ∃ callers, program.callers? method = some callers ∧ caller ∈ callers

/-- A direct caller has a body that invokes the method, up to the spelling of its class. -/
theorem mem_callers {method caller : MethodRef} :
    caller ∈ program.callers method ↔ ∃ body ∈ program.bodies, body.method = caller ∧
      ∃ target ∈ body.targets, target.method.key = method.key := by
  rw [callers, program.index_eq, Index.mem_callers_ofBodies]

/-- The bodies of a method are those declared with its key. -/
theorem mem_bodiesOf {method : MethodRef} {body : Body} :
    body ∈ program.bodiesOf method ↔ body ∈ program.bodies ∧ body.method.key = method.key := by
  rw [bodiesOf, program.index_eq, Index.bodies_ofBodies, List.mem_filter, decide_eq_true_eq]

/-- A method with a body is known by its bodies alone, in the order of the program. -/
theorem find?_of_declared {body : Body} {method : MethodRef} (hbody : body ∈ program.bodies)
    (hkey : body.method.key = method.key) :
    program.find? method =
      some ((program.bodies.filter (·.method.key = method.key)).map .declared) := by
  have hmem : body ∈ program.bodies.filter (·.method.key = method.key) := by
    simpa using ⟨hbody, hkey⟩
  rw [find?, program.index_eq, Entry.methods, Index.bodies_ofBodies]
  cases hbodies : program.bodies.filter (·.method.key = method.key) with
  | nil => simp [hbodies] at hmem
  | cons first rest => rfl

/-- A method without a body is known by its first invocation alone, if there is one. -/
theorem find?_of_undeclared {method : MethodRef}
    (h : ∀ body ∈ program.bodies, body.method.key ≠ method.key) :
    program.find? method =
      ((program.bodies.flatMap Body.targets).find? (·.method.key = method.key)).map
        fun target => [.external target] := by
  have hnone : program.bodies.filter (·.method.key = method.key) = [] := by
    simpa using h
  rw [find?, program.index_eq, Entry.methods, Index.bodies_ofBodies, hnone,
    Index.firstCall?_ofBodies]
  cases (program.bodies.flatMap Body.targets).find? (·.method.key = method.key) <;> rfl

/-- A method is known if a body is declared with its key or invokes it. -/
theorem isSome_find?_iff {method : MethodRef} :
    (program.find? method).isSome ↔ ∃ body ∈ program.bodies,
      body.method.key = method.key ∨ ∃ target ∈ body.targets, target.method.key = method.key := by
  by_cases hdeclared : ∃ body ∈ program.bodies, body.method.key = method.key
  · obtain ⟨body, hbody, hkey⟩ := hdeclared
    refine iff_of_true ?_ ⟨body, hbody, .inl hkey⟩
    rw [find?_of_declared hbody hkey, Option.isSome_some]
  · have hundeclared : ∀ body ∈ program.bodies, body.method.key ≠ method.key :=
      fun body hbody hkey => hdeclared ⟨body, hbody, hkey⟩
    rw [find?_of_undeclared hundeclared, Option.isSome_map, List.find?_isSome]
    constructor
    · rintro ⟨target, htarget, hkey⟩
      obtain ⟨body, hbody, hmem⟩ := List.mem_flatMap.mp htarget
      exact ⟨body, hbody, .inr ⟨target, hmem, by simpa using hkey⟩⟩
    · rintro ⟨body, hbody, hkey | ⟨target, htarget, hkey⟩⟩
      · exact absurd ⟨body, hbody, hkey⟩ hdeclared
      · exact ⟨target, List.mem_flatMap.mpr ⟨body, hbody, htarget⟩, by simpa using hkey⟩

/-- A method that is not known has no callers, so nothing is lost if they are asked for anyway. -/
theorem calledBy_iff {method caller : MethodRef} :
    program.CalledBy method caller ↔ caller ∈ program.callers method := by
  have hknown (h : caller ∈ program.callers method) : (program.find? method).isSome := by
    obtain ⟨body, hbody, -, hinvoked⟩ := mem_callers.mp h
    exact isSome_find?_iff.mpr ⟨body, hbody, .inr hinvoked⟩
  constructor
  · rintro ⟨callers, hcallers, hmem⟩
    obtain ⟨-, -, rfl⟩ := Option.map_eq_some_iff.mp hcallers
    exact hmem
  · intro h
    obtain ⟨methods, hmethods⟩ := Option.isSome_iff_exists.mp (hknown h)
    exact ⟨_, by rw [callers?, hmethods, Option.map_some], h⟩

theorem mem_toList_callers {method caller : MethodRef} :
    caller ∈ (program.callers method).toList ↔ program.CalledBy method caller := by
  rw [Std.ExtTreeSet.mem_toList, calledBy_iff]

end Program

end DalvikRules
