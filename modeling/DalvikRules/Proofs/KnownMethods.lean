import DalvikRules.Proofs.ProgramQueries
import Mathlib.Algebra.BigOperators.Group.Finset.Piecewise
import Mathlib.Algebra.Order.BigOperators.Group.Finset

/-!
# The methods that a program knows

The index of a program is keyed by names without class terminators, and external methods enter it
only by the invocations that name them. Whatever spellings, overloads and repetitions the bodies
have, the index loses nothing and adds nothing: `Program.AnswersFromBodies` says what each question
is answered with, in terms of the bodies alone, and every program meets it.
-/

namespace DalvikRules

namespace Program

variable {program : Program}

/-- The keys that the bodies of a program are declared with, one for each body. -/
def declaredKeys (program : Program) : List MethodKey :=
  program.bodies.map (·.method.key)

/-- The keys that the bodies of a program invoke, one for each call site. -/
def invokedKeys (program : Program) : List MethodKey :=
  (program.bodies.flatMap Body.callSites).map (·.callee.key)

theorem mem_declaredKeys {key : MethodKey} :
    key ∈ program.declaredKeys ↔ ∃ body ∈ program.bodies, body.method.key = key := by
  rw [declaredKeys, List.mem_map]

theorem mem_invokedKeys {key : MethodKey} :
    key ∈ program.invokedKeys ↔
      ∃ target ∈ program.bodies.flatMap Body.targets, target.method.key = key := by
  simp only [invokedKeys, List.mem_map, List.mem_flatMap]
  constructor
  · rintro ⟨site, ⟨body, hbody, hsite⟩, hkey⟩
    obtain ⟨target, htarget, hkey⟩ := Body.exists_callSite_iff.mp ⟨site, hsite, hkey⟩
    exact ⟨target, ⟨body, hbody, htarget⟩, hkey⟩
  · rintro ⟨target, ⟨body, hbody, htarget⟩, hkey⟩
    obtain ⟨site, hsite, hkey⟩ := Body.exists_callSite_iff.mpr ⟨target, htarget, hkey⟩
    exact ⟨site, ⟨body, hbody, hsite⟩, hkey⟩

/-! ### How many methods are known -/

/-- Under a key that is declared stand as many methods as bodies are declared with it, and under any
other key one method if it is invoked, and none if it is not. -/
theorem length_methods_entry (program : Program) (key : MethodKey) :
    (program.index.entry key).methods.length =
      program.declaredKeys.count key +
        if key ∈ program.invokedKeys.toFinset \ program.declaredKeys.toFinset then 1 else 0 := by
  have hcount : program.declaredKeys.count key =
      (program.bodies.filter (·.method.key = key)).length := by
    rw [declaredKeys, List.count, List.countP_map, List.countP_eq_length_filter]
    rfl
  rw [hcount, program.index_eq, Entry.methods, Index.bodies_ofBodies, Index.firstCall?_ofBodies]
  by_cases hdeclared : key ∈ program.declaredKeys
  · have hsome : program.bodies.filter (·.method.key = key) ≠ [] := by
      obtain ⟨body, hbody, hkey⟩ := mem_declaredKeys.mp hdeclared
      exact List.ne_nil_of_mem (List.mem_filter.mpr ⟨hbody, decide_eq_true hkey⟩)
    simp [hdeclared, hsome]
  · have hnone : program.bodies.filter (·.method.key = key) = [] := by
      simpa [mem_declaredKeys] using hdeclared
    have hcalled : ((program.bodies.flatMap Body.targets).find? (·.method.key = key)).isSome ↔
        key ∈ program.invokedKeys := by
      rw [List.find?_isSome, mem_invokedKeys]
      simp only [decide_eq_true_eq]
    cases hfirst : (program.bodies.flatMap Body.targets).find? (·.method.key = key) with
    | none =>
      rw [hfirst] at hcalled
      have hsilent : key ∉ program.invokedKeys := fun hmem => by simpa using hcalled.mpr hmem
      simp [hnone, hsilent]
    | some target =>
      rw [hfirst] at hcalled
      have hinvoked : key ∈ program.invokedKeys := hcalled.mp rfl
      simp [hnone, hdeclared, hinvoked]

/-- The index has an entry for every key that is declared or invoked. -/
theorem mem_keys_index {key : MethodKey}
    (h : key ∈ program.declaredKeys ∨ key ∈ program.invokedKeys) : key ∈ program.index.keys := by
  by_contra hmissing
  rw [Std.TreeMap.mem_keys] at hmissing
  have hentry : program.index.entry key = {} := by
    rw [Index.entry, Std.TreeMap.getElem?_eq_none hmissing, Option.getD_none]
  have hlength := program.length_methods_entry key
  rw [hentry] at hlength
  have hnone : program.declaredKeys.count key = 0 := (Nat.add_eq_zero_iff.mp hlength.symm).1
  have hundeclared : key ∉ program.declaredKeys := List.count_eq_zero.mp hnone
  have hinvoked : key ∈ program.invokedKeys := h.resolve_left hundeclared
  have hexternal : key ∈ program.invokedKeys.toFinset \ program.declaredKeys.toFinset := by
    simp [hinvoked, hundeclared]
  rw [if_pos hexternal] at hlength
  cases hlength

/-- The known methods are counted key by key. -/
theorem methodCount_eq_sum (program : Program) :
    program.methodCount =
      ∑ key ∈ program.index.keys.toFinset, (program.index.entry key).methods.length := by
  have hentries : program.index.toList.map (fun pair => pair.2.methods.length) =
      program.index.keys.map fun key => (program.index.entry key).methods.length := by
    rw [← Std.TreeMap.map_fst_toList_eq_keys, List.map_map]
    apply List.map_congr_left
    rintro ⟨key, entry⟩ hmem
    have hentry : program.index.entry key = entry := by
      rw [Index.entry, Std.TreeMap.mem_toList_iff_getElem?_eq_some.mp hmem, Option.getD_some]
    rw [Function.comp_apply, hentry]
  rw [List.sum_toFinset _ Std.TreeMap.nodup_keys, ← hentries, List.sum_eq_foldl, List.foldl_map,
    methodCount, Std.TreeMap.foldl_eq_foldl_toList]

/-- Every body is a known method, and every key that is invoked without being declared stands for
one more. -/
theorem methodCount_eq (program : Program) :
    program.methodCount = program.bodies.length +
      (program.invokedKeys.toFinset \ program.declaredKeys.toFinset).card := by
  let external := program.invokedKeys.toFinset \ program.declaredKeys.toFinset
  let keys := program.index.keys.toFinset
  have hbodies : ∑ key ∈ keys, program.declaredKeys.count key = program.bodies.length := by
    have hlisted : ∀ key ∈ (program.declaredKeys : Multiset MethodKey), key ∈ keys :=
      fun key hkey => List.mem_toFinset.mpr (mem_keys_index (.inl hkey))
    have hcount := Multiset.sum_count_eq_card hlisted
    simpa only [Multiset.coe_count, Multiset.coe_card, declaredKeys, List.length_map] using hcount
  have hexternal : ∑ key ∈ keys, (if key ∈ external then 1 else 0) = external.card := by
    have hlisted : external ⊆ keys := by
      intro key hkey
      have hinvoked : key ∈ program.invokedKeys :=
        List.mem_toFinset.mp (Finset.mem_sdiff.mp hkey).1
      exact List.mem_toFinset.mpr (mem_keys_index (.inr hinvoked))
    rw [Finset.sum_ite_mem, Finset.inter_eq_right.mpr hlisted, Finset.card_eq_sum_ones]
  calc program.methodCount
      = ∑ key ∈ keys, (program.index.entry key).methods.length := program.methodCount_eq_sum
    _ = ∑ key ∈ keys,
          (program.declaredKeys.count key + if key ∈ external then 1 else 0) :=
        Finset.sum_congr rfl fun key _ => program.length_methods_entry key
    _ = program.bodies.length + external.card := by
        rw [Finset.sum_add_distrib, hbodies, hexternal]

/-! ### What a program answers -/

/-- What the questions of a program are answered with, in terms of its bodies. -/
structure AnswersFromBodies (program : Program) : Prop where
  /-- A method with bodies is known by all of them, in their order. -/
  declared : ∀ method, (∃ body ∈ program.bodies, body.method.key = method.key) →
    program.find? method =
      some ((program.bodies.filter (·.method.key = method.key)).map .declared)
  /-- A method without a body that is invoked is known as one external method, which has the class
  spelling and the descriptor of its first invocation. -/
  external : ∀ method target, (∀ body ∈ program.bodies, body.method.key ≠ method.key) →
    (program.bodies.flatMap Body.targets).find? (·.method.key = method.key) = some target →
    ∃ known, program.find? method = some [known] ∧ known.isExternal = true ∧
      known.instructions = [] ∧ known.ref = target.method ∧ known.descriptor = target.descriptor
  /-- A method that is neither declared nor invoked is unknown. -/
  unknown : ∀ method, (∀ body ∈ program.bodies, body.method.key ≠ method.key) →
    (∀ body ∈ program.bodies, ∀ site ∈ body.callSites, site.callee.key ≠ method.key) →
    program.find? method = none
  /-- Callers are named for known methods only. -/
  callers_none : ∀ method, program.callers? method = none ↔ program.find? method = none
  /-- The callers of a known method are the methods of all bodies with a call site for it. -/
  callers_some : ∀ method callers, program.callers? method = some callers → ∀ caller,
    caller ∈ callers ↔ ∃ body ∈ program.bodies, body.method = caller ∧
      ∃ site ∈ body.callSites, site.callee.key = method.key
  /-- Every caller is known itself. -/
  callers_known : ∀ method callers, program.callers? method = some callers →
    ∀ caller ∈ callers, (program.find? caller).isSome = true
  /-- No key has both a body and an external method. -/
  apart : ∀ method methods, program.find? method = some methods → ∀ known ∈ methods,
    known.isExternal = true → ∀ body ∈ program.bodies, body.method.key ≠ method.key
  /-- The known methods are the bodies and one method for each key that is invoked without having a
  body. -/
  count : program.methodCount = program.bodies.length +
    (program.invokedKeys.toFinset \ program.declaredKeys.toFinset).card

theorem find?_eq_none {method : MethodRef}
    (hundeclared : ∀ body ∈ program.bodies, body.method.key ≠ method.key)
    (hsilent : ∀ body ∈ program.bodies, ∀ site ∈ body.callSites, site.callee.key ≠ method.key) :
    program.find? method = none := by
  rw [← Option.not_isSome_iff_eq_none, isSome_find?_iff]
  rintro ⟨body, hbody, hkey | hinvokes⟩
  · exact hundeclared body hbody hkey
  · obtain ⟨site, hsite, hkey⟩ := Body.exists_callSite_iff.mpr hinvokes
    exact hsilent body hbody site hsite hkey

theorem mem_of_callers?_eq_some {method caller : MethodRef} {callers : MethodSet}
    (h : program.callers? method = some callers) :
    caller ∈ callers ↔ ∃ body ∈ program.bodies, body.method = caller ∧
      ∃ site ∈ body.callSites, site.callee.key = method.key := by
  obtain ⟨-, -, rfl⟩ := Option.map_eq_some_iff.mp h
  simp only [mem_callers, Body.exists_callSite_iff]

/-- Only declared methods stand beside a body. -/
theorem undeclared_of_isExternal {method : MethodRef} {methods : List Method} {known : Method}
    (h : program.find? method = some methods) (hknown : known ∈ methods)
    (hexternal : known.isExternal = true) :
    ∀ body ∈ program.bodies, body.method.key ≠ method.key := by
  intro body hbody hkey
  rw [find?_of_declared hbody hkey] at h
  cases h
  obtain ⟨other, -, rfl⟩ := List.mem_map.mp hknown
  cases hexternal

/-- A program answers every question from its bodies. However classes are spelled and however often
a method is listed, it is known by its bodies or else by its first invocation, its callers are the
bodies that invoke it, and nothing is counted twice. -/
theorem answersFromBodies (program : Program) : program.AnswersFromBodies := by
  constructor
  case declared =>
    rintro method ⟨body, hbody, hkey⟩
    exact find?_of_declared hbody hkey
  case external =>
    intro method target hundeclared hfirst
    rw [find?_of_undeclared hundeclared, hfirst]
    exact ⟨.external target, rfl, rfl, rfl, rfl, rfl⟩
  case unknown =>
    intro method hundeclared hsilent
    exact find?_eq_none hundeclared hsilent
  case callers_none =>
    intro method
    rw [callers?, Option.map_eq_none_iff]
  case callers_some =>
    intro method callers hcallers caller
    exact mem_of_callers?_eq_some hcallers
  case callers_known =>
    intro method callers hcallers caller hcaller
    obtain ⟨body, hbody, hmethod, -⟩ := (mem_of_callers?_eq_some hcallers).mp hcaller
    exact isSome_find?_iff.mpr ⟨body, hbody, .inl (congrArg MethodRef.key hmethod)⟩
  case apart =>
    intro method methods hmethods known hknown hexternal
    exact undeclared_of_isExternal hmethods hknown hexternal
  case count => exact program.methodCount_eq

end Program

end DalvikRules
