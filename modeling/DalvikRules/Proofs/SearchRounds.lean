import DalvikRules.Proofs.Findings
import DalvikRules.Proofs.NearestCommonCallers

/-!
# The rounds of a search

The search for common callers refuses to compare an empty set, and it makes this test in every
round. Here the rounds of a search are followed one by one. A search that starts from two sets with
members never comes to an empty one, so it always ends with an answer. And since every further round
has to add a method, the bodies of the program bound their number, however great the depth may be.
-/

namespace DalvikRules

theorem MethodSet.size_pos {methods : MethodSet} (h : methods ≠ ∅) : 0 < methods.size := by
  rw [Nat.pos_iff_ne_zero]
  intro hsize
  exact h (Std.ExtTreeSet.eq_empty_iff_size_eq_zero.mpr hsize)

namespace Program

variable {program : Program} {maxDepth depth : Nat} {start other left right : MethodSet}

/-- The rounds of a search from two sets: the depth of each, and the sets that are compared in it.
There is a next round if the sets have nothing in common, the depth allows it, and one of them
grows. -/
inductive Round (program : Program) (maxDepth : Nat) (start other : MethodSet) :
    Nat → MethodSet → MethodSet → Prop
  | first : Round program maxDepth start other 1 start other
  | next {depth : Nat} {left right : MethodSet}
      (hround : Round program maxDepth start other depth left right)
      (hapart : (left ∩ right).isEmpty = true) (hdepth : depth + 1 ≤ maxDepth)
      (hgrows : ¬ ((program.widen left).size = left.size ∧
        (program.widen right).size = right.size)) :
      Round program maxDepth start other (depth + 1) (program.widen left) (program.widen right)

namespace Round

theorem depth_pos (h : program.Round maxDepth start other depth left right) : 1 ≤ depth := by
  cases h with
  | first => exact Nat.le_refl 1
  | next _ _ _ _ => exact Nat.le_add_left 1 _

/-- There is only one round of each depth. -/
theorem unique {otherLeft otherRight : MethodSet}
    (h : program.Round maxDepth start other depth left right)
    (hother : program.Round maxDepth start other depth otherLeft otherRight) :
    left = otherLeft ∧ right = otherRight := by
  induction h generalizing otherLeft otherRight with
  | first =>
    cases hother with
    | first => exact ⟨rfl, rfl⟩
    | next hround _ _ _ => exact absurd hround.depth_pos (by omega)
  | next hround _ _ _ ih =>
    cases hother with
    | first => exact absurd hround.depth_pos (by omega)
    | next hround _ _ _ =>
      obtain ⟨rfl, rfl⟩ := ih hround
      exact ⟨rfl, rfl⟩

/-- A search only comes to a deeper round by way of the next one. -/
theorem next_of_deeper {deeper : Nat} {deeperLeft deeperRight : MethodSet}
    (h : program.Round maxDepth start other depth left right)
    (hround : program.Round maxDepth start other deeper deeperLeft deeperRight)
    (hdeeper : depth < deeper) :
    (left ∩ right).isEmpty = true ∧ depth + 1 ≤ maxDepth ∧
      ¬ ((program.widen left).size = left.size ∧ (program.widen right).size = right.size) := by
  induction hround with
  | first => exact absurd h.depth_pos (by omega)
  | @next before _ _ hbefore hapart hdepth hgrows ih =>
    by_cases hlast : depth = before
    · subst hlast
      obtain ⟨rfl, rfl⟩ := h.unique hbefore
      exact ⟨hapart, hdepth, hgrows⟩
    · exact ih (by omega)

/-- No round empties a set. -/
theorem nonempty (h : program.Round maxDepth start other depth left right) (hstart : start ≠ ∅)
    (hother : other ≠ ∅) : left ≠ ∅ ∧ right ≠ ∅ := by
  induction h with
  | first => exact ⟨hstart, hother⟩
  | next _ _ _ _ ih =>
    obtain ⟨hleft, hright⟩ := ih
    exact ⟨mt eq_empty_of_widen_eq_empty hleft, mt eq_empty_of_widen_eq_empty hright⟩

/-- A search goes on with its next round: it answers what that round answers. -/
theorem commonCallersFrom_eq (h : program.Round maxDepth start other depth left right)
    (hstart : start ≠ ∅) (hother : other ≠ ∅) :
    program.commonCallersFrom 1 maxDepth start other =
      program.commonCallersFrom depth maxDepth left right := by
  induction h with
  | first => rfl
  | @next depth left right hround hapart hdepth hgrows ih =>
    obtain ⟨hleft, hright⟩ := hround.nonempty hstart hother
    have hsome : ¬ (left.isEmpty || right.isEmpty) = true :=
      isEmpty_or_iff.not.mpr (not_or.mpr ⟨hleft, hright⟩)
    have hcommon : ¬ (!(left ∩ right).isEmpty) = true := by simp [hapart]
    have hallowed : ¬ depth + 1 > maxDepth := Nat.not_lt.mpr hdepth
    rw [ih, commonCallersFrom_step, if_neg hsome, if_neg hcommon, if_neg hallowed, if_neg hgrows]

/-- Every round after the first is entered with one more method on one of the sides. -/
theorem depth_lt_sizes (h : program.Round maxDepth start other depth left right)
    (hstart : start ≠ ∅) (hother : other ≠ ∅) : depth < left.size + right.size := by
  have hwider (methods : MethodSet) : methods.size ≤ (program.widen methods).size := by
    rw [← Std.ExtTreeSet.length_toList (t := program.widen methods)]
    apply MethodSet.size_le_length
    intro method hmethod
    exact Std.ExtTreeSet.mem_toList.mpr (mem_widen.mpr (.inl hmethod))
  induction h with
  | first =>
    have hleft := MethodSet.size_pos hstart
    have hright := MethodSet.size_pos hother
    omega
  | @next depth left right _ _ _ hgrows ih =>
    have hleft := hwider left
    have hright := hwider right
    omega

/-- A search does not leave a class of methods that it starts in and that holds all callers. -/
theorem mem_of_closed {inside : MethodRef → Prop}
    (h : program.Round maxDepth start other depth left right)
    (hstart : ∀ method ∈ start, inside method) (hother : ∀ method ∈ other, inside method)
    (hclosed : ∀ base method, program.CalledBy base method → inside method) :
    (∀ method ∈ left, inside method) ∧ ∀ method ∈ right, inside method := by
  have hwider {methods : MethodSet} (hmethods : ∀ method ∈ methods, inside method) :
      ∀ method ∈ program.widen methods, inside method := by
    intro method hmethod
    rcases mem_widen.mp hmethod with hold | ⟨base, -, hcall⟩
    · exact hmethods method hold
    · exact hclosed base method hcall
  induction h with
  | first => exact ⟨hstart, hother⟩
  | next _ _ _ _ ih => exact ⟨hwider ih.1, hwider ih.2⟩

end Round

end Program

namespace Rule

variable {rule : Rule} {program : Program} {maxDepth depth : Nat} {left right : MethodSet}

/-- The rounds of the search that an assessment makes. There are none unless the first three levels
are passed and both methods of the rule have callers. -/
structure SearchRound (rule : Rule) (program : Program) (maxDepth depth : Nat)
    (left right : MethodSet) : Prop where
  level : (rule.checklist program []).apiCombination = true
  candidates : ¬ ((program.callers rule.first).isEmpty ||
    (program.callers rule.second).isEmpty) = true
  round : program.Round maxDepth (program.callers rule.first) (program.callers rule.second) depth
    left right

/-- What holds in every round of the search that an assessment makes. -/
structure SafeRound (rule : Rule) (program : Program) (maxDepth depth : Nat)
    (left right : MethodSet) : Prop where
  left_nonempty : left ≠ ∅
  right_nonempty : right ≠ ∅
  /-- The round has an answer, and the whole search answers the same. -/
  answer : ∃ answer, program.commonCallersFrom depth maxDepth left right = .ok answer ∧
    program.commonCallersFrom 1 maxDepth (program.callers rule.first)
      (program.callers rule.second) = .ok answer
  /-- The depth counter never grows large, whatever the greatest depth is. -/
  depth_lt : depth < 2 * program.bodies.length

/-- In no round of an assessment is there a side without candidates, so each of them has an answer;
and the depth counter stays below twice the number of bodies. -/
theorem SearchRound.safe (h : rule.SearchRound program maxDepth depth left right) :
    rule.SafeRound program maxDepth depth left right := by
  obtain ⟨hfirst, hsecond⟩ := not_or.mp (Program.isEmpty_or_iff.not.mp h.candidates)
  obtain ⟨hleft, hright⟩ := h.round.nonempty hfirst hsecond
  constructor
  case left_nonempty => exact hleft
  case right_nonempty => exact hright
  case answer =>
    have hwhole := h.round.commonCallersFrom_eq hfirst hsecond
    cases hanswer : program.commonCallersFrom depth maxDepth left right with
    | ok answer => exact ⟨answer, rfl, hwhole.trans hanswer⟩
    | error error =>
      obtain ⟨hempty, -⟩ := Program.commonCallers_eq_error_iff.mp hanswer
      exact absurd hempty (not_or.mpr ⟨hleft, hright⟩)
  case depth_lt =>
    have hdepth := h.round.depth_lt_sizes hfirst hsecond
    obtain ⟨hmemLeft, hmemRight⟩ := h.round.mem_of_closed
      (fun _ => Program.mem_bodies_of_mem_callers) (fun _ => Program.mem_bodies_of_mem_callers)
      fun _ _ hcall => Program.mem_bodies_of_mem_callers (Program.calledBy_iff.mp hcall)
    have hsizeLeft := MethodSet.size_le_length hmemLeft
    have hsizeRight := MethodSet.size_le_length hmemRight
    rw [List.length_map] at hsizeLeft hsizeRight
    omega

end Rule

end DalvikRules
