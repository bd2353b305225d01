import DalvikRules.Proofs.SearchRounds
import DalvikRules.Json.Value

/-!
# How far a search goes

The greatest depth is only a ceiling. A search widens its sets as long as they have nothing in
common and one of them grows, and both of these use up methods: the sets lie apart inside the two
sets that it starts from and the declared methods, and each round adds one method more. So the
number of these methods bounds the work of a search, and a ceiling that lies above it is never met.
Such a search finds something precisely if the transitive callers of the two sets have something in
common. What a search does on the way to its answer is kept in an account, and the numbers in it are
those of the rounds.
-/

namespace DalvikRules

theorem MethodSet.size_le_of_subset {smaller larger : MethodSet}
    (h : ∀ method ∈ smaller, method ∈ larger) : smaller.size ≤ larger.size := by
  rw [← Std.ExtTreeSet.length_toList (t := larger)]
  apply MethodSet.size_le_length
  intro method hmethod
  exact Std.ExtTreeSet.mem_toList.mpr (h method hmethod)

namespace Program

variable {program : Program} {depth maxDepth deeper : Nat} {start other left right : MethodSet}

/-- What a search for common callers answers, and what it takes to get there. -/
structure SearchAccount where
  answer : Except SearchError (Option MethodSet)
  /-- How often both sets were widened. -/
  widenings : Nat
  /-- The greatest value of the depth counter. -/
  deepest : Nat

/-- The search for common callers with an account of its work. The counter goes up before it is
compared with the ceiling, and the sets are widened before they are seen not to grow. -/
def accountFrom (program : Program) (depth maxDepth : Nat) (left right : MethodSet) :
    SearchAccount :=
  if left.isEmpty || right.isEmpty then
    ⟨.error (.emptyCandidates left.size right.size), 0, depth⟩
  else if !(left ∩ right).isEmpty then ⟨.ok (some (left ∩ right)), 0, depth⟩
  else if depth + 1 > maxDepth then ⟨.ok none, 0, depth + 1⟩
  else if (program.widen left).size = left.size ∧ (program.widen right).size = right.size then
    ⟨.ok none, 1, depth + 1⟩
  else
    let rest := program.accountFrom (depth + 1) maxDepth (program.widen left) (program.widen right)
    { rest with widenings := rest.widenings + 1 }
termination_by maxDepth - depth

/-- The account is one of the search itself. -/
theorem answer_accountFrom (program : Program) (depth maxDepth : Nat) (left right : MethodSet) :
    (program.accountFrom depth maxDepth left right).answer =
      program.commonCallersFrom depth maxDepth left right := by
  fun_induction accountFrom program depth maxDepth left right with
  | case1 depth left right hempty => rw [commonCallersFrom_step, if_pos hempty]
  | case2 depth left right hempty hcommon =>
    rw [commonCallersFrom_step, if_neg hempty, if_pos hcommon]
  | case3 depth left right hempty hcommon hceiling =>
    rw [commonCallersFrom_step, if_neg hempty, if_neg hcommon, if_pos hceiling]
  | case4 depth left right hempty hcommon hceiling hcomplete =>
    rw [commonCallersFrom_step, if_neg hempty, if_neg hcommon, if_neg hceiling, if_pos hcomplete]
  | case5 depth left right hempty hcommon hceiling hgrows rest ih =>
    rw [commonCallersFrom_step, if_neg hempty, if_neg hcommon, if_neg hceiling, if_neg hgrows]
    exact ih

theorem depth_le_deepest (program : Program) (depth maxDepth : Nat) (left right : MethodSet) :
    depth ≤ (program.accountFrom depth maxDepth left right).deepest := by
  fun_induction accountFrom program depth maxDepth left right with
  | case1 | case2 => exact Nat.le_refl _
  | case3 | case4 => exact Nat.le_succ _
  | case5 depth left right _ _ _ _ rest ih => exact Nat.le_of_succ_le ih

/-- A search that stays below its ceiling does the same under every ceiling that it stays below. -/
theorem accountFrom_of_deepest_le
    (h : (program.accountFrom depth maxDepth left right).deepest ≤ maxDepth)
    (hdeeper : (program.accountFrom depth maxDepth left right).deepest ≤ deeper) :
    program.accountFrom depth deeper left right =
      program.accountFrom depth maxDepth left right := by
  fun_induction accountFrom program depth maxDepth left right with
  | case1 depth left right hempty => rw [accountFrom, if_pos hempty]
  | case2 depth left right hempty hcommon =>
    rw [accountFrom, if_neg hempty, if_pos hcommon]
  | case3 depth left right hempty hcommon hceiling => exact absurd h (Nat.not_le.mpr hceiling)
  | case4 depth left right hempty hcommon hceiling hcomplete =>
    have hbelow : ¬ depth + 1 > deeper := Nat.not_lt.mpr hdeeper
    rw [accountFrom, if_neg hempty, if_neg hcommon, if_neg hbelow, if_pos hcomplete]
  | case5 depth left right hempty hcommon hceiling hgrows rest ih =>
    have hbelow : ¬ depth + 1 > deeper :=
      Nat.not_lt.mpr (Nat.le_trans (depth_le_deepest _ _ _ _ _) hdeeper)
    rw [accountFrom, if_neg hempty, if_neg hcommon, if_neg hbelow, if_neg hgrows, ih h hdeeper]

/-! ### What an account counts -/

/-- The rounds in which a search raises its counter: those whose sets have nothing in common. -/
def Raises (program : Program) (maxDepth : Nat) (start other : MethodSet) (depth : Nat) : Prop :=
  ∃ left right, program.Round maxDepth start other depth left right ∧
    (left ∩ right).isEmpty = true

theorem Round.raises_iff (h : program.Round maxDepth start other depth left right) :
    program.Raises maxDepth start other depth ↔ (left ∩ right).isEmpty = true := by
  constructor
  · rintro ⟨_, _, hround, hapart⟩
    obtain ⟨rfl, rfl⟩ := h.unique hround
    exact hapart
  · exact fun hapart => ⟨left, right, h, hapart⟩

/-- After the last round of a search the counter is not raised any more. -/
theorem Round.raises_iff_of_last (h : program.Round maxDepth start other depth left right)
    (hlast : ¬ ((left ∩ right).isEmpty = true ∧ depth + 1 ≤ maxDepth ∧
      ¬ ((program.widen left).size = left.size ∧ (program.widen right).size = right.size)))
    (hdeeper : depth ≤ deeper) :
    program.Raises maxDepth start other deeper ↔
      deeper = depth ∧ (left ∩ right).isEmpty = true := by
  rcases Nat.eq_or_lt_of_le hdeeper with rfl | hlater
  · rw [h.raises_iff, and_iff_right rfl]
  · refine iff_of_false ?_ fun ⟨heq, _⟩ => absurd heq (Nat.ne_of_gt hlater)
    rintro ⟨_, _, hround, -⟩
    exact hlast (h.next_of_deeper hround hlater)

/-- From each round on, an account counts the rounds in which the counter is raised, and those in
which the sets are widened as well because the ceiling is not met. -/
theorem Round.accountFrom_counts (h : program.Round maxDepth start other depth left right)
    (hstart : start ≠ ∅) (hother : other ≠ ∅) (hdeeper : depth ≤ deeper) :
    (program.Raises maxDepth start other deeper ↔
        deeper < (program.accountFrom depth maxDepth left right).deepest) ∧
      (program.Raises maxDepth start other deeper ∧ deeper < maxDepth ↔
        deeper < depth + (program.accountFrom depth maxDepth left right).widenings) := by
  fun_induction accountFrom program depth maxDepth left right with
  | case1 depth left right hempty =>
    obtain ⟨hleft, hright⟩ := h.nonempty hstart hother
    exact absurd (isEmpty_or_iff.mp hempty) (not_or.mpr ⟨hleft, hright⟩)
  | case2 depth left right _ hcommon =>
    have hmeet : ¬ (left ∩ right).isEmpty = true := by simpa using hcommon
    have hnone : ¬ program.Raises maxDepth start other deeper := by
      rw [h.raises_iff_of_last (fun hnext => hmeet hnext.1) hdeeper]
      exact fun hraised => hmeet hraised.2
    simp only [hnone, false_and, false_iff]
    omega
  | case3 depth left right _ hcommon hceiling =>
    have hapart : (left ∩ right).isEmpty = true := by simpa using hcommon
    rw [h.raises_iff_of_last (fun hnext => absurd hnext.2.1 (Nat.not_le.mpr hceiling)) hdeeper]
    simp only [hapart, and_true]
    omega
  | case4 depth left right _ hcommon hceiling hcomplete =>
    have hapart : (left ∩ right).isEmpty = true := by simpa using hcommon
    rw [h.raises_iff_of_last (fun hnext => hnext.2.2 hcomplete) hdeeper]
    simp only [hapart, and_true]
    omega
  | case5 depth left right _ hcommon hceiling hgrows rest ih =>
    have hapart : (left ∩ right).isEmpty = true := by simpa using hcommon
    change (_ ↔ deeper < rest.deepest) ∧ (_ ↔ deeper < depth + (rest.widenings + 1))
    rcases Nat.eq_or_lt_of_le hdeeper with rfl | hlater
    · have hdeepest : depth < rest.deepest := depth_le_deepest program (depth + 1) maxDepth _ _
      simp only [h.raises_iff, hapart, true_and, true_iff]
      omega
    · obtain ⟨hraised, hwidened⟩ := ih (h.next hapart (Nat.not_lt.mp hceiling) hgrows) hlater
      rw [Nat.add_comm rest.widenings, ← Nat.add_assoc]
      exact ⟨hraised, hwidened⟩

/-- The account of a search counts its rounds. The counter is raised in the rounds below its
greatest value, and the sets are widened in as many rounds as there are widenings: in those in which
the counter is raised and does not meet the ceiling. -/
theorem accountFrom_counts_rounds (program : Program) (hstart : start ≠ ∅) (hother : other ≠ ∅)
    (maxDepth depth : Nat) :
    (program.Raises maxDepth start other depth ↔
        1 ≤ depth ∧ depth < (program.accountFrom 1 maxDepth start other).deepest) ∧
      (program.Raises maxDepth start other depth ∧ depth < maxDepth ↔
        1 ≤ depth ∧ depth ≤ (program.accountFrom 1 maxDepth start other).widenings) := by
  have hfirst : program.Round maxDepth start other 1 start other := .first
  by_cases hdepth : 1 ≤ depth
  · obtain ⟨hraised, hwidened⟩ := hfirst.accountFrom_counts hstart hother hdepth
    rw [hraised, and_iff_right hdepth, and_iff_right hdepth]
    rw [hraised] at hwidened
    exact ⟨Iff.rfl, hwidened.trans (by omega)⟩
  · have hnone : ¬ program.Raises maxDepth start other depth := by
      rintro ⟨_, _, hround, -⟩
      exact hdepth hround.depth_pos
    exact ⟨iff_of_false hnone fun h => hdepth h.1,
      iff_of_false (fun h => hnone h.1) fun h => hdepth h.1⟩

/-! ### How much there is to count -/

/-- The methods that a search can come upon: those that it starts from, and the declared ones. -/
def searchSpace (program : Program) (start other : MethodSet) : MethodSet :=
  start ∪ other ∪ .ofList (program.bodies.map Body.method)

theorem mem_searchSpace {method : MethodRef} :
    method ∈ program.searchSpace start other ↔
      method ∈ start ∨ method ∈ other ∨ method ∈ program.bodies.map Body.method := by
  simp [searchSpace, or_assoc]

/-- The methods that a search can come upon hold their callers. -/
theorem mem_searchSpace_of_calledBy {method caller : MethodRef}
    (h : program.CalledBy method caller) : caller ∈ program.searchSpace start other :=
  mem_searchSpace.mpr (.inr (.inr (mem_bodies_of_mem_callers (calledBy_iff.mp h))))

/-- In a round whose sets lie apart, the counter can go up once more. -/
theorem Round.depth_lt_of_apart (h : program.Round maxDepth start other depth left right)
    (hstart : start ≠ ∅) (hother : other ≠ ∅) (hapart : (left ∩ right).isEmpty = true) :
    depth < (program.searchSpace start other).size := by
  obtain ⟨hleft, hright⟩ := h.mem_of_closed
    (fun _ hmethod => mem_searchSpace.mpr (.inl hmethod))
    (fun _ hmethod => mem_searchSpace.mpr (.inr (.inl hmethod)))
    fun _ _ hcall => mem_searchSpace_of_calledBy hcall
  have hsum : left.size + right.size = (left ∪ right).size := by
    have hsizes : left.size + right.size = (left ∪ right).size + (left ∩ right).size :=
      Std.ExtTreeSet.size_add_size_eq_size_union_add_size_inter
    rw [Std.ExtTreeSet.isEmpty_iff] at hapart
    rwa [hapart, Std.ExtTreeSet.size_empty, Nat.add_zero] at hsizes
  have hunion : (left ∪ right).size ≤ (program.searchSpace start other).size := by
    refine MethodSet.size_le_of_subset fun method hmethod => ?_
    rcases Std.ExtTreeSet.mem_union_iff.mp hmethod with hmem | hmem
    · exact hleft method hmem
    · exact hright method hmem
  have hdepth := h.depth_lt_sizes hstart hother
  omega

/-- Whatever its ceiling is, a search widens its sets less often than there are methods that it can
come upon, and its counter does not go beyond their number. -/
theorem accountFrom_one_le (program : Program) (hstart : start ≠ ∅) (hother : other ≠ ∅)
    (maxDepth : Nat) :
    (program.accountFrom 1 maxDepth start other).widenings <
        (program.searchSpace start other).size ∧
      (program.accountFrom 1 maxDepth start other).deepest ≤
        (program.searchSpace start other).size := by
  have hcounts := accountFrom_counts_rounds program hstart hother maxDepth
  have hbelow (depth : Nat) (hraised : program.Raises maxDepth start other depth) :
      depth < (program.searchSpace start other).size := by
    obtain ⟨_, _, hround, hapart⟩ := hraised
    exact hround.depth_lt_of_apart hstart hother hapart
  have hpos : 0 < (program.searchSpace start other).size :=
    Nat.lt_of_lt_of_le (MethodSet.size_pos hstart)
      (MethodSet.size_le_of_subset fun _ h => mem_searchSpace.mpr (.inl h))
  constructor
  · rcases Nat.eq_zero_or_pos (program.accountFrom 1 maxDepth start other).widenings with
      hnone | hsome
    · rwa [hnone]
    · exact hbelow _ ((hcounts _).2.mpr ⟨hsome, Nat.le_refl _⟩).1
  · by_contra hgreater
    -- Otherwise the counter is raised in the round with the number of methods for its depth.
    have hraised := (hcounts _).1.mpr ⟨hpos, Nat.not_le.mp hgreater⟩
    exact Nat.lt_irrefl _ (hbelow _ hraised)

/-- A search that cannot start does nothing. -/
theorem accountFrom_of_empty (h : left = ∅ ∨ right = ∅) (depth maxDepth : Nat) :
    program.accountFrom depth maxDepth left right =
      ⟨.error (.emptyCandidates left.size right.size), 0, depth⟩ := by
  rw [accountFrom, if_pos (isEmpty_or_iff.mpr h)]

/-- All ceilings that no search can meet lead to the same answer. -/
theorem commonCallersFrom_of_high_ceiling
    (h : (program.searchSpace left right).size ≤ maxDepth)
    (hdeeper : (program.searchSpace left right).size ≤ deeper) :
    program.commonCallersFrom 1 deeper left right =
      program.commonCallersFrom 1 maxDepth left right := by
  rw [← answer_accountFrom, ← answer_accountFrom]
  by_cases hempty : left = ∅ ∨ right = ∅
  · rw [accountFrom_of_empty hempty, accountFrom_of_empty hempty]
  · obtain ⟨hleft, hright⟩ := not_or.mp hempty
    have hdeepest := (accountFrom_one_le program hleft hright maxDepth).2
    rw [accountFrom_of_deepest_le (Nat.le_trans hdeepest h) (Nat.le_trans hdeepest hdeeper)]

/-! ### What a search without a ceiling finds -/

/-- The methods of a set together with all their transitive callers. -/
def AboveSome (program : Program) (methods : MethodSet) : Set MethodRef :=
  {method | ∃ base ∈ methods, method ∈ program.Above base}

theorem Within.mem_aboveSome {layers : Nat} {methods : MethodSet} {method : MethodRef}
    (h : program.Within layers methods method) : method ∈ program.AboveSome methods := by
  obtain ⟨base, hbase, length, -, hchain⟩ := h
  exact ⟨base, hbase, length, hchain⟩

/-- Two sets meet within some number of layers if a method lies above both of them. -/
theorem exists_meetWithin_iff :
    (∃ layers, program.MeetWithin left right layers) ↔
      (program.AboveSome left ∩ program.AboveSome right).Nonempty := by
  constructor
  · rintro ⟨layers, method, hleft, hright⟩
    exact ⟨method, hleft.mem_aboveSome, hright.mem_aboveSome⟩
  · rintro ⟨method, ⟨base, hbase, length, hchain⟩, other, hother, otherLength, hotherChain⟩
    exact ⟨max length otherLength, method,
      ⟨base, hbase, length, Nat.le_max_left _ _, hchain⟩,
      ⟨other, hother, otherLength, Nat.le_max_right _ _, hotherChain⟩⟩

/-- Under a ceiling that it cannot meet, a search finds something if there is anything to find. -/
theorem exists_common_iff_aboveSome (h : (program.searchSpace left right).size ≤ maxDepth) :
    (∃ common, program.commonCallersFrom 1 maxDepth left right = .ok (some common)) ↔
      (program.AboveSome left ∩ program.AboveSome right).Nonempty := by
  rw [← exists_meetWithin_iff]
  constructor
  · rintro ⟨common, hcommon⟩
    obtain ⟨layers, hleast, -⟩ := commonCallers_eq_some_iff.mp hcommon
    exact ⟨layers, hleast.1.2⟩
  · intro hmeet
    classical
    have hleast : IsLeast {layers | program.MeetWithin left right layers} (Nat.find hmeet) :=
      Nat.isLeast_find hmeet
    -- A ceiling that is high enough for this number of layers as well gives the same answer.
    let ceiling := 1 + max maxDepth (Nat.find hmeet)
    have hwithin :
        IsLeast (program.meetings left right (ceiling - 1)) (Nat.find hmeet) :=
      ⟨⟨by omega, hleast.1⟩, fun layers hlayers => hleast.2 hlayers.2⟩
    obtain ⟨common, hcommon, -⟩ := commonCallers_of_isLeast hwithin
    have hceiling : (program.searchSpace left right).size ≤ ceiling := by omega
    refine ⟨common, ?_⟩
    rw [← commonCallersFrom_of_high_ceiling h hceiling]
    exact hcommon

/-- A search is bounded by the program and not by its ceiling. It widens its sets at most as often
as there are methods in them and in the program, and its depth counter exceeds this number by one at
most; so the counter fits into a word as soon as the number of methods does. Under every greater
ceiling the search finds something precisely if some method lies above both sets, so its answer does
not depend on the ceiling any more. -/
theorem search_bounded_by_methods (program : Program) (left right : MethodSet) (maxDepth : Nat) :
    let account := program.accountFrom 1 maxDepth left right
    let methods := (program.searchSpace left right).size
    account.answer = program.commonCallersFrom 1 maxDepth left right ∧
    account.widenings ≤ methods ∧
    account.deepest ≤ 1 + methods ∧
    (methods < word64Limit → account.deepest < word64Limit) ∧
    (1 + methods ≤ maxDepth →
      ((∃ common, program.commonCallersFrom 1 maxDepth left right = .ok (some common)) ↔
        (program.AboveSome left ∩ program.AboveSome right).Nonempty) ∧
      program.commonCallersFrom 1 maxDepth left right =
        program.commonCallersFrom 1 (1 + methods) left right) := by
  intro account methods
  have hbounds : account.widenings ≤ methods ∧ account.deepest ≤ max 1 methods := by
    by_cases hempty : left = ∅ ∨ right = ∅
    · have hnothing : account = ⟨.error (.emptyCandidates left.size right.size), 0, 1⟩ :=
        accountFrom_of_empty hempty 1 maxDepth
      rw [hnothing]
      exact ⟨Nat.zero_le _, Nat.le_max_left _ _⟩
    · obtain ⟨hleft, hright⟩ := not_or.mp hempty
      obtain ⟨hwidenings, hdeepest⟩ := accountFrom_one_le program hleft hright maxDepth
      exact ⟨Nat.le_of_lt hwidenings, Nat.le_trans hdeepest (Nat.le_max_right _ _)⟩
  obtain ⟨hwidenings, hdeepest⟩ := hbounds
  refine ⟨answer_accountFrom .., hwidenings, by omega, fun hword => ?_, fun hceiling => ?_⟩
  · have hone : 1 < word64Limit := by decide
    omega
  · have hlow : methods ≤ maxDepth := by omega
    exact ⟨exists_common_iff_aboveSome hlow,
      commonCallersFrom_of_high_ceiling (Nat.le_add_left _ _) hlow⟩

end Program

end DalvikRules
