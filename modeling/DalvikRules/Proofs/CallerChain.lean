import DalvikRules.CallGraph.CommonCallers
import DalvikRules.Proofs.ProgramQueries
import Mathlib.Data.Set.Defs

/-!
# Chains of callers

Both searches in the call graph climb from a method to its callers. What they find is described by
chains of such steps, counted in edges and independent of the order in which a search takes them.
One widening of a set of methods takes every chain one edge further.
-/

namespace DalvikRules

namespace Program

variable {program : Program}

/-- A method is reached from another by a number of caller edges. -/
inductive CallerChain (program : Program) : Nat → MethodRef → MethodRef → Prop
  | here (method : MethodRef) : CallerChain program 0 method method
  | up {length : Nat} {method caller top : MethodRef} (hcall : program.CalledBy method caller)
      (hchain : CallerChain program length caller top) :
      CallerChain program (length + 1) method top

/-- A chain does not leave a set of methods that holds all callers of its members. -/
theorem CallerChain.mem_of_closed {region : Set MethodRef} {length : Nat} {base top : MethodRef}
    (hclosed : ∀ method ∈ region, ∀ caller, program.CalledBy method caller → caller ∈ region)
    (hbase : base ∈ region) (h : program.CallerChain length base top) : top ∈ region := by
  induction h with
  | here => exact hbase
  | up hcall _ ih => exact ih (hclosed _ hbase _ hcall)

/-- A chain can be continued at its upper end. -/
theorem CallerChain.snoc {length : Nat} {base top caller : MethodRef}
    (h : program.CallerChain length base top) (hcall : program.CalledBy top caller) :
    program.CallerChain (length + 1) base caller := by
  induction h with
  | here method => exact .up hcall (.here caller)
  | up hfirst _ ih => exact .up hfirst (ih hcall)

/-- A method and all its transitive callers. -/
def Above (program : Program) (base : MethodRef) : Set MethodRef :=
  {method | ∃ length, program.CallerChain length base method}

theorem self_mem_above (base : MethodRef) : base ∈ program.Above base :=
  ⟨0, .here base⟩

theorem mem_above_of_calledBy {base method caller : MethodRef} (h : method ∈ program.Above base)
    (hcall : program.CalledBy method caller) : caller ∈ program.Above base := by
  obtain ⟨length, hchain⟩ := h
  exact ⟨length + 1, hchain.snoc hcall⟩

/-- Whatever lies above a caller lies above the called method. -/
theorem above_subset_of_calledBy {method caller : MethodRef} (h : program.CalledBy method caller) :
    program.Above caller ⊆ program.Above method := by
  rintro top ⟨length, hchain⟩
  exact ⟨length + 1, .up h hchain⟩

/-- A list of methods that holds all callers of its members holds all that lies above them. -/
theorem mem_of_mem_above {near : List MethodRef} {base method : MethodRef}
    (hclosed : ∀ below ∈ near, ∀ caller ∈ (program.callers below).toList, caller ∈ near)
    (hbase : base ∈ near) (h : method ∈ program.Above base) : method ∈ near := by
  obtain ⟨length, hchain⟩ := h
  have hcalls : ∀ below ∈ {below | below ∈ near}, ∀ caller,
      program.CalledBy below caller → caller ∈ {below | below ∈ near} :=
    fun below hbelow caller hcall => hclosed below hbelow caller (mem_toList_callers.mpr hcall)
  exact hchain.mem_of_closed hcalls hbase

/-- A method is reached from some method of a set by at most `layers` caller edges. -/
def Within (program : Program) (layers : Nat) (methods : MethodSet) (top : MethodRef) : Prop :=
  ∃ base ∈ methods, ∃ length ≤ layers, program.CallerChain length base top

/-- Two sets have a common method if each is extended by so many layers of callers. -/
def MeetWithin (program : Program) (left right : MethodSet) (layers : Nat) : Prop :=
  ∃ method, program.Within layers left method ∧ program.Within layers right method

theorem within_zero {methods : MethodSet} {top : MethodRef} :
    program.Within 0 methods top ↔ top ∈ methods := by
  constructor
  · rintro ⟨base, hbase, length, hlength, hchain⟩
    cases hchain with
    | here => exact hbase
    | up => omega
  · intro h
    exact ⟨top, h, 0, Nat.le_refl _, .here top⟩

theorem mem_widen {methods : MethodSet} {method : MethodRef} :
    method ∈ program.widen methods ↔
      method ∈ methods ∨ ∃ base ∈ methods, program.CalledBy base method := by
  have hfold (bases : List MethodRef) :
      method ∈ bases.foldr (fun base wider => program.callers base ∪ wider) methods ↔
        method ∈ methods ∨ ∃ base ∈ bases, program.CalledBy base method := by
    induction bases with
    | nil => simp
    | cons base rest ih =>
      rw [List.foldr_cons, Std.ExtTreeSet.mem_union_iff, ih]
      simp only [List.mem_cons, exists_eq_or_imp, calledBy_iff]
      exact or_left_comm
  rw [widen, hfold]
  simp only [Std.ExtTreeSet.mem_toList]

/-- Widening takes the first edge of every chain. -/
theorem within_widen {layers : Nat} {methods : MethodSet} {top : MethodRef} :
    program.Within layers (program.widen methods) top ↔
      program.Within (layers + 1) methods top := by
  constructor
  · rintro ⟨base, hbase, length, hlength, hchain⟩
    rcases mem_widen.mp hbase with hbase | ⟨below, hbelow, hcall⟩
    · exact ⟨base, hbase, length, by omega, hchain⟩
    · exact ⟨below, hbelow, length + 1, by omega, .up hcall hchain⟩
  · rintro ⟨base, hbase, length, hlength, hchain⟩
    cases hchain with
    | here => exact ⟨top, mem_widen.mpr (.inl hbase), 0, Nat.zero_le _, .here top⟩
    | up hcall hchain =>
      exact ⟨_, mem_widen.mpr (.inr ⟨base, hbase, hcall⟩), _, by omega, hchain⟩

theorem meetWithin_widen {left right : MethodSet} {layers : Nat} :
    program.MeetWithin (program.widen left) (program.widen right) layers ↔
      program.MeetWithin left right (layers + 1) := by
  simp only [MeetWithin, within_widen]

end Program

end DalvikRules
