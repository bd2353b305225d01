import DalvikRules.Proofs.CallerChain
import Mathlib.Order.Nat

/-!
# The search finds the nearest common callers

The search for common callers answers with the overlap of the two sets after the least number of
caller layers that makes them overlap, as long as the depth allows so many. It may stop early when
neither set grows: then both sets hold all their callers already, and no further layer adds any.
-/

namespace DalvikRules

namespace Program

variable {program : Program} {left right : MethodSet}

/-- A set that does not grow in size when it is widened holds all its callers. -/
private theorem widen_eq_of_size_eq {methods : MethodSet}
    (h : (program.widen methods).size = methods.size) : program.widen methods = methods :=
  MethodSet.eq_of_subset_of_size_eq (fun _ hmem => mem_widen.mpr (.inl hmem)) h

/-- Widening leaves no set empty that was not. -/
theorem eq_empty_of_widen_eq_empty {methods : MethodSet}
    (h : program.widen methods = ∅) : methods = ∅ := by
  refine Std.ExtTreeSet.ext_mem fun method => ?_
  refine iff_of_false (fun hmem => ?_) Std.ExtTreeSet.not_mem_empty
  have hwider : method ∈ program.widen methods := mem_widen.mpr (.inl hmem)
  rw [h] at hwider
  exact Std.ExtTreeSet.not_mem_empty hwider

/-- The test at the start of every round. -/
theorem isEmpty_or_iff :
    (left.isEmpty || right.isEmpty) = true ↔ left = ∅ ∨ right = ∅ := by
  rw [Bool.or_eq_true, Std.ExtTreeSet.isEmpty_iff, Std.ExtTreeSet.isEmpty_iff]

/-- The numbers of layers, at most `rounds`, that make two sets overlap. -/
def meetings (program : Program) (left right : MethodSet) (rounds : Nat) : Set Nat :=
  {layers | layers ≤ rounds ∧ program.MeetWithin left right layers}

theorem meetWithin_zero :
    program.MeetWithin left right 0 ↔ (left ∩ right).isEmpty = false := by
  rw [MethodSet.isEmpty_eq_false_iff]
  simp only [MeetWithin, within_zero, Std.ExtTreeSet.mem_inter_iff]

/-- Sets that meet are not empty. -/
theorem MeetWithin.ne_empty {layers : Nat} (h : program.MeetWithin left right layers) :
    ¬ (left = ∅ ∨ right = ∅) := by
  obtain ⟨method, ⟨first, hfirst, -⟩, ⟨second, hsecond, -⟩⟩ := h
  rintro (rfl | rfl)
  · exact Std.ExtTreeSet.not_mem_empty hfirst
  · exact Std.ExtTreeSet.not_mem_empty hsecond

theorem meetWithin_comm {layers : Nat} :
    program.MeetWithin right left layers ↔ program.MeetWithin left right layers :=
  exists_congr fun _ => and_comm

theorem meetings_comm (rounds : Nat) :
    program.meetings right left rounds = program.meetings left right rounds :=
  Set.ext fun _ => and_congr_right fun _ => meetWithin_comm

theorem commonCallers_of_empty (rounds : Nat) (h : left = ∅ ∨ right = ∅) :
    program.commonCallers rounds left right =
      .error (.emptyCandidates left.size right.size) := by
  rw [commonCallers.eq_def, if_pos (isEmpty_or_iff.mpr h)]

theorem commonCallers_of_overlap (rounds : Nat) (h : program.MeetWithin left right 0) :
    program.commonCallers rounds left right = .ok (some (left ∩ right)) := by
  have hoverlap := meetWithin_zero.mp h
  rw [commonCallers.eq_def, if_neg (isEmpty_or_iff.not.mpr h.ne_empty)]
  exact if_neg (by simp [hoverlap])

/-- Where two sets do not overlap, the search widens both, unless neither grows. -/
theorem commonCallers_of_apart (rounds : Nat)
    (hempty : ¬ (left = ∅ ∨ right = ∅)) (h : ¬ program.MeetWithin left right 0) :
    program.commonCallers rounds left right =
      match rounds with
      | 0 => .ok none
      | rounds + 1 =>
        if program.widen left = left ∧ program.widen right = right then .ok none
        else program.commonCallers rounds (program.widen left) (program.widen right) := by
  have hcommon : (left ∩ right).isEmpty = true := by
    rw [meetWithin_zero] at h
    simpa using h
  rw [commonCallers.eq_def, if_neg (isEmpty_or_iff.not.mpr hempty), if_pos hcommon]
  cases rounds with
  | zero => rfl
  | succ rounds =>
    refine if_congr ⟨fun hsize => ?_, fun hsame => ?_⟩ rfl rfl
    · exact ⟨widen_eq_of_size_eq hsize.1, widen_eq_of_size_eq hsize.2⟩
    · rw [hsame.1, hsame.2]
      exact ⟨rfl, rfl⟩

/-- The search answers with the overlap after the least number of layers that makes the sets
overlap. It cannot stop before this number is reached: if neither set grows, one layer less would
make them overlap just as well. -/
theorem commonCallers_of_isLeast {rounds layers : Nat}
    (h : IsLeast (program.meetings left right rounds) layers) :
    ∃ common, program.commonCallers rounds left right = .ok (some common) ∧
      ∀ method, method ∈ common ↔
        program.Within layers left method ∧ program.Within layers right method := by
  induction layers generalizing rounds left right with
  | zero =>
    refine ⟨left ∩ right, commonCallers_of_overlap rounds h.1.2, fun method => ?_⟩
    rw [Std.ExtTreeSet.mem_inter_iff, within_zero, within_zero]
  | succ layers ih =>
    obtain ⟨⟨hrounds, hmeet⟩, hleast⟩ := h
    have hapart : ¬ program.MeetWithin left right 0 := fun hzero =>
      absurd (hleast ⟨Nat.zero_le _, hzero⟩) (by simp)
    obtain ⟨rounds, rfl⟩ : ∃ fewer, rounds = fewer + 1 := ⟨rounds - 1, by omega⟩
    -- Were both sets complete, they would overlap after one layer less.
    have hgrows : ¬ (program.widen left = left ∧ program.widen right = right) := by
      rintro ⟨hleft, hright⟩
      have hfewer : program.MeetWithin left right layers := by
        rwa [← meetWithin_widen, hleft, hright] at hmeet
      have := hleast ⟨by omega, hfewer⟩
      omega
    have hwider : IsLeast (program.meetings (program.widen left) (program.widen right) rounds)
        layers := by
      refine ⟨⟨by omega, meetWithin_widen.mpr hmeet⟩, fun other hother => ?_⟩
      have := hleast ⟨Nat.succ_le_succ hother.1, meetWithin_widen.mp hother.2⟩
      omega
    obtain ⟨common, hcommon, hmem⟩ := ih hwider
    refine ⟨common, ?_, fun method => ?_⟩
    · rw [commonCallers_of_apart _ hmeet.ne_empty hapart]
      simpa only [if_neg hgrows] using hcommon
    · rw [hmem, within_widen, within_widen]

/-- The search gives up if no number of layers that it may look at makes the sets overlap. -/
theorem commonCallers_of_no_meeting {rounds : Nat}
    (hempty : ¬ (left = ∅ ∨ right = ∅))
    (h : ∀ layers ≤ rounds, ¬ program.MeetWithin left right layers) :
    program.commonCallers rounds left right = .ok none := by
  induction rounds generalizing left right with
  | zero => rw [commonCallers_of_apart 0 hempty (h 0 (Nat.le_refl _))]
  | succ rounds ih =>
    rw [commonCallers_of_apart _ hempty (h 0 (Nat.zero_le _))]
    have hwider : ¬ (program.widen left = ∅ ∨ program.widen right = ∅) := fun hnone =>
      hempty (hnone.imp eq_empty_of_widen_eq_empty eq_empty_of_widen_eq_empty)
    have hnever := ih hwider fun layers hlayers hmeet =>
      h (layers + 1) (Nat.succ_le_succ hlayers) (meetWithin_widen.mp hmeet)
    simp only [hnever, ite_self]

/-- A search ends in one of three ways, each with its reason. -/
theorem commonCallers_cases (program : Program) (rounds : Nat) (left right : MethodSet) :
    ((left = ∅ ∨ right = ∅) ∧ program.commonCallers rounds left right =
        .error (.emptyCandidates left.size right.size)) ∨
      ((¬ (left = ∅ ∨ right = ∅) ∧
          ∀ layers ≤ rounds, ¬ program.MeetWithin left right layers) ∧
        program.commonCallers rounds left right = .ok none) ∨
      ∃ layers common, IsLeast (program.meetings left right rounds) layers ∧
        program.commonCallers rounds left right = .ok (some common) ∧
        ∀ method, method ∈ common ↔
          program.Within layers left method ∧ program.Within layers right method := by
  by_cases hempty : left = ∅ ∨ right = ∅
  · exact .inl ⟨hempty, commonCallers_of_empty rounds hempty⟩
  · right
    by_cases hsome : ∃ layers, layers ≤ rounds ∧ program.MeetWithin left right layers
    · right
      classical
      have hleast : IsLeast (program.meetings left right rounds) (Nat.find hsome) :=
        Nat.isLeast_find hsome
      obtain ⟨common, hcommon, hmem⟩ := commonCallers_of_isLeast hleast
      exact ⟨_, common, hleast, hcommon, hmem⟩
    · left
      have hnever : ∀ layers ≤ rounds, ¬ program.MeetWithin left right layers :=
        fun layers hlayers hmeet => hsome ⟨layers, hlayers, hmeet⟩
      exact ⟨⟨hempty, hnever⟩, commonCallers_of_no_meeting hempty hnever⟩

/-- It does not matter which of the two sets comes first. -/
theorem commonCallers_symm (program : Program) (rounds : Nat) (left right : MethodSet) :
    (program.commonCallers rounds right left).toOption =
      (program.commonCallers rounds left right).toOption := by
  rcases program.commonCallers_cases rounds left right with
    ⟨hempty, hresult⟩ | ⟨⟨hempty, hnever⟩, hresult⟩ | ⟨layers, common, hleast, hresult, hmem⟩
  · rw [hresult, commonCallers_of_empty rounds hempty.symm]
    rfl
  · have hswapped : ¬ (right = ∅ ∨ left = ∅) := fun h => hempty h.symm
    rw [hresult, commonCallers_of_no_meeting hswapped fun layers hlayers hmeet =>
      hnever layers hlayers (meetWithin_comm.mp hmeet)]
  · rw [← meetings_comm] at hleast
    obtain ⟨common', hresult', hmem'⟩ := commonCallers_of_isLeast hleast
    have hsame : common' = common := Std.ExtTreeSet.ext_mem fun method => by
      rw [hmem, hmem']
      exact and_comm
    rw [hresult, hresult', hsame]

theorem commonCallers_eq_some_iff {rounds : Nat} {common : MethodSet} :
    program.commonCallers rounds left right = .ok (some common) ↔
      ∃ layers, IsLeast (program.meetings left right rounds) layers ∧
        ∀ method, method ∈ common ↔
          program.Within layers left method ∧ program.Within layers right method := by
  constructor
  · intro h
    rcases program.commonCallers_cases rounds left right with
      ⟨_, hresult⟩ | ⟨_, hresult⟩ | ⟨layers, found, hleast, hresult, hmem⟩
    · cases hresult.symm.trans h
    · cases hresult.symm.trans h
    · cases hresult.symm.trans h
      exact ⟨layers, hleast, hmem⟩
  · rintro ⟨layers, hleast, hmem⟩
    obtain ⟨found, hresult, hfound⟩ := commonCallers_of_isLeast hleast
    have hsame : found = common := Std.ExtTreeSet.ext_mem fun method => by rw [hfound, hmem]
    rw [hresult, hsame]

theorem commonCallers_eq_none_iff {rounds : Nat} :
    program.commonCallers rounds left right = .ok none ↔ left ≠ ∅ ∧ right ≠ ∅ ∧
      ∀ layers ≤ rounds, ¬ program.MeetWithin left right layers := by
  rw [← and_assoc, ← not_or]
  rcases program.commonCallers_cases rounds left right with
    ⟨hempty, hresult⟩ | ⟨hreason, hresult⟩ | ⟨layers, found, hleast, hresult, _⟩
  · exact iff_of_false (by simp [hresult]) fun h => h.1 hempty
  · exact iff_of_true hresult hreason
  · exact iff_of_false (by simp [hresult]) fun h => h.2 layers hleast.1.1 hleast.1.2

theorem commonCallers_eq_error_iff {rounds : Nat} {error : SearchError} :
    program.commonCallers rounds left right = .error error ↔
      (left = ∅ ∨ right = ∅) ∧ error = .emptyCandidates left.size right.size := by
  rcases program.commonCallers_cases rounds left right with
    ⟨hempty, hresult⟩ | ⟨⟨hempty, _⟩, hresult⟩ | ⟨layers, found, hleast, hresult, _⟩
  · rw [hresult, Except.error.injEq, and_iff_right hempty, eq_comm]
  · exact iff_of_false (by simp [hresult]) fun h => hempty h.1
  · exact iff_of_false (by simp [hresult]) fun h => hleast.1.2.ne_empty h.1

/-- The search for common callers is exact. It finds a set of methods precisely if some number of
layers within the depth makes the two sets overlap, and then it finds the overlap after the least
such number; the sets themselves are always compared. It ends without a result precisely if there
is no such number, and it refuses to start precisely if one of the sets is empty. The order of the
two sets is of no importance. -/
theorem commonCallersFrom_eq_nearest (program : Program) (depth maxDepth : Nat)
    (left right : MethodSet) :
    (∀ common, program.commonCallersFrom depth maxDepth left right = .ok (some common) ↔
      ∃ layers, IsLeast (program.meetings left right (maxDepth - depth)) layers ∧
        ∀ method, method ∈ common ↔
          program.Within layers left method ∧ program.Within layers right method) ∧
    (program.commonCallersFrom depth maxDepth left right = .ok none ↔
      left ≠ ∅ ∧ right ≠ ∅ ∧
        ∀ layers ≤ maxDepth - depth, ¬ program.MeetWithin left right layers) ∧
    (∀ error, program.commonCallersFrom depth maxDepth left right = .error error ↔
      (left = ∅ ∨ right = ∅) ∧ error = .emptyCandidates left.size right.size) ∧
    (program.commonCallersFrom depth maxDepth right left).toOption =
      (program.commonCallersFrom depth maxDepth left right).toOption := by
  exact ⟨fun _ => commonCallers_eq_some_iff, commonCallers_eq_none_iff,
    fun _ => commonCallers_eq_error_iff, program.commonCallers_symm _ left right⟩

end Program

end DalvikRules
