import DalvikRules.Board
import DalvikRules.Proofs.CallPairs
import DalvikRules.Proofs.ReportCoherence
import DalvikRules.Proofs.Results
import DalvikRules.Proofs.SearchRounds
import DalvikRules.Json.Value
import Mathlib.Algebra.Group.Action.Defs
import Mathlib.Algebra.Order.BigOperators.Group.List
import Mathlib.Algebra.Order.Ring.Nat

/-!
# What a board lists

A list of rules is graded rule by rule. The grading never fails, since no search is started without
candidates and no round of a search runs out of them. The board then holds one report for each rule,
in the order of the rules, with the sum of their scores and the sum of the reported weights. It
makes no difference whether the rules are graded one after another or in tasks of their own.
-/

namespace DalvikRules

namespace Board

/-- Reports are recorded one after another, each after those that the board holds already. -/
theorem foldl_record (board : Board) (reports : List Report) :
    (reports.foldl record board).reports.toList = board.reports.toList ++ reports ∧
      (reports.foldl record board).totals.score =
        board.totals.score + (reports.map Report.score).sum ∧
      (reports.foldl record board).totals.weight =
        (reports.map Report.weight).foldl (· + ·) board.totals.weight := by
  induction reports generalizing board with
  | nil => simp
  | cons report rest ih =>
    obtain ⟨hreports, hscore, hweight⟩ := ih (board.record report)
    rw [List.foldl_cons, hreports, hscore, hweight]
    refine ⟨?reports, ?score, rfl⟩
    case reports => simp [record]
    case score =>
      rw [List.map_cons, List.sum_cons, ← Nat.add_assoc]
      rfl

/-- A board lists the reports of the given rules, one for each rule and in their order, and sums
them up. -/
structure Lists (board : Board) (rules : List Rule) (program : Program) (config : Config) :
    Prop where
  /-- Each report is the one that its rule is given when it is graded alone. -/
  reports : List.Forall₂ (fun rule report => rule.assess program config = .ok report) rules
    board.reports.toList
  /-- The total score depends on the rules alone. -/
  score : board.totals.score = (rules.map Rule.score).sum
  /-- The weights are added from the first to the last. -/
  weight : board.totals.weight =
    (board.reports.toList.map Report.weight).foldl (· + ·) ((0 : Nat) : Float)
  /-- Scores of 32 bits do not overflow a total of 64 bits. -/
  word : (∀ rule ∈ rules, rule.score < word32Limit) → rules.length ≤ word32Limit →
    board.totals.score < word64Limit

end Board

namespace Rule

variable {program : Program} {config : Config}

/-- A report carries the score of its rule, whatever the program contains. -/
theorem score_of_assess {rule : Rule} {report : Report}
    (h : rule.assess program config = .ok report) : report.score = rule.score := by
  rw [assess_eq, evidence_eq] at h
  cases h
  rfl

theorem map_score_of_assess {rules : List Rule} {reports : List Report}
    (h : List.Forall₂ (fun rule report => rule.assess program config = .ok report) rules reports) :
    reports.map Report.score = rules.map Rule.score := by
  induction h with
  | nil => rfl
  | cons hreport _ ih => rw [List.map_cons, List.map_cons, score_of_assess hreport, ih]

/-- So many scores of 32 bits sum up to less than 64 bits can hold. -/
theorem sum_score_lt {rules : List Rule} (hscores : ∀ rule ∈ rules, rule.score < word32Limit)
    (hlength : rules.length ≤ word32Limit) : (rules.map Rule.score).sum < word64Limit := by
  have hbound : ∀ score ∈ rules.map Rule.score, score ≤ word32Limit - 1 := by
    intro score hscore
    obtain ⟨rule, hrule, rfl⟩ := List.mem_map.mp hscore
    have hlt := hscores rule hrule
    omega
  have hsum := List.sum_le_card_nsmul _ _ hbound
  rw [List.length_map, smul_eq_mul] at hsum
  have hmany : rules.length * (word32Limit - 1) ≤ word32Limit * (word32Limit - 1) :=
    Nat.mul_le_mul_right _ hlength
  have hwords : word32Limit * (word32Limit - 1) < word64Limit := by decide
  omega

end Rule

/-- Tasks of their own do not change what is graded. -/
theorem mapM_spawn {α β ε : Type} (f : α → Except ε β) (l : List α) :
    (l.map fun a => Task.spawn fun _ => f a).mapM Task.get = l.mapM f := by
  rw [List.mapM_map]
  rfl

theorem assessRules_eq (program : Program) (config : Config) (parallel : Bool)
    (rules : List Rule) :
    assessRules program config parallel rules =
      (rules.mapM fun rule : Rule => rule.assess program config).map Board.ofReports := by
  have hreports : assessRules program config parallel rules =
      (rules.mapM fun rule : Rule => rule.assess program config) >>= fun reports =>
        pure (Board.ofReports reports) := by
    rw [assessRules]
    cases parallel with
    | false => rfl
    | true => exact congrArg (· >>= _) (mapM_spawn _ rules)
  rw [hreports]
  cases rules.mapM fun rule : Rule => rule.assess program config <;> rfl

/-- Grading a list of rules always ends with a board, in tasks or not and at every search depth. The
board lists the report of each rule in the order of the rules, and its totals are the sums over
them. No search that is made on the way comes to a side without candidates, at whatever depth. -/
theorem assessRules_lists (program : Program) (config : Config) (parallel : Bool)
    (rules : List Rule) :
    ∃ board, assessRules program config parallel rules = .ok board ∧
      board.Lists rules program config ∧
      ∀ rule ∈ rules, ∀ depth left right,
        rule.SearchRound program config.maxDepth depth left right →
          rule.SafeRound program config.maxDepth depth left right := by
  obtain ⟨reports, hreports⟩ :=
    exists_mapM_eq_ok (fun rule : Rule => rule.exists_report program config) rules
  have hall := mapM_eq_ok_iff.mp hreports
  obtain ⟨hlisted, hscore, hweight⟩ := Board.foldl_record {} reports
  have htotal : (Board.ofReports reports).totals.score = (rules.map Rule.score).sum := by
    rw [Board.ofReports, hscore, Rule.map_score_of_assess hall]
    exact Nat.zero_add _
  have hboard : (Board.ofReports reports).reports.toList = reports := hlisted
  refine ⟨Board.ofReports reports, ?ok, ?lists, ?safe⟩
  case ok =>
    rw [assessRules_eq, hreports]
    rfl
  case lists =>
    constructor
    case reports =>
      rw [hboard]
      exact hall
    case score => exact htotal
    case weight =>
      rw [hboard]
      exact hweight
    case word =>
      intro hscores hlength
      rw [htotal]
      exact Rule.sum_score_lt hscores hlength
  case safe =>
    intro rule _ depth left right hround
    exact hround.safe

/-- Two rules in tasks of their own, at the greatest depth of 64 bits. The search for the first one
comes to a second round, with `read` and `run` on one side and `run` on the other. -/
theorem assessRules_lists_readBeforeSend :
    let sides := [⟨"LS", "query"⟩, ⟨"LT;", "send"⟩].map fun method : MethodRef =>
      Program.readsThenSends.widen (Program.readsThenSends.callers method)
    let rules := [Rule.readBeforeSend, { Rule.readBeforeSend with score := 3 }]
    let deepest : Config := ⟨word64Limit - 1, .loose⟩
    sides.map Std.ExtTreeSet.toList =
        [[⟨"LA;", "read"⟩, ⟨"LA;", "run"⟩], [⟨"LA;", "run"⟩]] ∧
      (∀ rule ∈ rules, rule.score < word32Limit) ∧ rules.length ≤ word32Limit ∧
      Rule.readBeforeSend.SearchRound .readsThenSends deepest.maxDepth 2 sides[0] sides[1] ∧
      ∃ board, assessRules .readsThenSends deepest true rules = .ok board ∧
        board.Lists rules .readsThenSends deepest ∧ board.totals.score = 4 ∧
        board.totals.score < word64Limit ∧
        Rule.readBeforeSend.SafeRound .readsThenSends deepest.maxDepth 2 sides[0] sides[1] := by
  intro sides rules deepest
  have hsides : sides.map Std.ExtTreeSet.toList =
      [[⟨"LA;", "read"⟩, ⟨"LA;", "run"⟩], [⟨"LA;", "run"⟩]] := by
    decide +kernel
  have hscores : ∀ rule ∈ rules, rule.score < word32Limit := by decide
  have hlength : rules.length ≤ word32Limit := by decide
  have hround : Rule.readBeforeSend.SearchRound .readsThenSends deepest.maxDepth 2
      sides[0] sides[1] := by
    constructor
    case level => decide +kernel
    case candidates => decide +kernel
    case round =>
      apply Program.Round.next .first
      · decide +kernel
      · decide
      · decide +kernel
  obtain ⟨board, hboard, hlists, hsafe⟩ :=
    assessRules_lists .readsThenSends deepest true rules
  exact ⟨hsides, hscores, hlength, hround, board, hboard, hlists, hlists.score,
    hlists.word hscores hlength, hsafe _ List.mem_cons_self _ _ _ hround⟩

end DalvikRules
