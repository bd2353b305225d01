import DalvikRules.Proofs.BoardContent
import DalvikRules.Proofs.ExactDoubles
import DalvikRules.Json.Value
import Mathlib.Tactic.Linarith
import Mathlib.Tactic.Ring

/-!
# Which way the risk moves

The risk compares the total weight with a quarter and with a half of the total score. A default
weight is a quarter of the score after three levels and a half after four, and it grows with the
levels. A report of at most three levels therefore adds no more than its share to the weight, at
both thresholds, and a report of four or five levels no less. Added to any totals, the one cannot
raise the risk and the other cannot lower it. This is said of totals without rounding. The totals
that are computed from default weights are such totals as long as the scores sum up to less than
`2 ^ 49`, since all these weights are multiples of a sixteenth.
-/

namespace DalvikRules

namespace RiskLevel

/-- How high a grade is. -/
def rank : RiskLevel → Nat
  | low => 0
  | moderate => 1
  | high => 2

instance : LE RiskLevel := ⟨fun risk other => risk.rank ≤ other.rank⟩

instance : DecidableLE RiskLevel := fun risk other =>
  inferInstanceAs (Decidable (risk.rank ≤ other.rank))

/-- A grade is at most another one if it lies below the two thresholds that the other one is below.
-/
theorem le_iff {risk other : RiskLevel} :
    risk ≤ other ↔ (other = low → risk = low) ∧ (other ≠ high → risk ≠ high) := by
  cases risk <;> cases other <;> decide

end RiskLevel

/-- The threshold of a low risk lies below that of a moderate one. -/
theorem quarter_le_half (score : Nat) : (score : ℚ) / (4 : ℕ) ≤ score / (2 : ℕ) :=
  div_le_div_of_nonneg_left (Nat.cast_nonneg _) (by norm_num) (by norm_num)

namespace Totals

variable {totals other : Totals ℚ} {weight : ℚ} {score parts : Nat}

/-- The weight is at most one of so many equal parts of the score. -/
def Within (totals : Totals ℚ) (parts : Nat) : Prop :=
  totals.weight ≤ totals.score / (parts : ℚ)

theorem risk_eq_low_iff : totals.risk = .low ↔ totals.Within 4 := by
  rw [risk, RiskLevel.ofTotals, Within]
  split_ifs with hlow hmoderate
  · exact iff_of_true rfl hlow
  · exact iff_of_false (by decide) hlow
  · exact iff_of_false (by decide) hlow

theorem risk_ne_high_iff : totals.risk ≠ .high ↔ totals.Within 2 := by
  rw [risk, RiskLevel.ofTotals, Within]
  split_ifs with hlow hmoderate
  · exact iff_of_true (by decide) (hlow.trans (quarter_le_half _))
  · exact iff_of_true (by decide) hmoderate
  · exact iff_of_false (by decide) hmoderate

/-- Totals have at most the risk of others if they are within a threshold whenever the others are.
-/
theorem risk_le_iff :
    totals.risk ≤ other.risk ↔
      (other.Within 4 → totals.Within 4) ∧ (other.Within 2 → totals.Within 2) := by
  rw [RiskLevel.le_iff, risk_eq_low_iff, risk_eq_low_iff, risk_ne_high_iff, risk_ne_high_iff]

theorem within_empty (parts : Nat) : zero.Within parts := by
  simp [Within, zero]

/-- Totals stay within a part if what is added to them is within it. -/
theorem Within.record (h : totals.Within parts) (hweight : weight ≤ score / (parts : ℚ)) :
    (totals.record score weight).Within parts := by
  rw [Within, Totals.record, Nat.cast_add, add_div]
  exact add_le_add h hweight

/-- If what was added does not lie within a part, then what it was added to did. -/
theorem Within.of_record (h : (totals.record score weight).Within parts)
    (hweight : score / (parts : ℚ) ≤ weight) : totals.Within parts := by
  rw [Within, Totals.record, Nat.cast_add, add_div] at h
  rw [Within]
  linarith

end Totals

section DefaultWeights

variable {score passed : Nat}

/-- Default weights grow with the levels. -/
theorem defaultWeight_le_defaultWeight {few many : Nat} (h : few ≤ many) :
    (defaultWeight score few : ℚ) ≤ defaultWeight score many := by
  have hscore : (0 : ℚ) ≤ score := Nat.cast_nonneg _
  cases few with
  | zero =>
    rw [defaultWeight, Nat.cast_zero]
    cases many with
    | zero => exact le_rfl
    | succ further => exact div_nonneg (mul_nonneg hscore (Nat.cast_nonneg _)) (Nat.cast_nonneg _)
  | succ further =>
    obtain ⟨more, rfl⟩ := Nat.exists_eq_add_of_le' h
    have hpower : (Nat.pow 2 further : ℚ) ≤ (Nat.pow 2 (more + further) : ℚ) :=
      Nat.cast_le.mpr (Nat.pow_le_pow_right two_pos (Nat.le_add_left ..))
    rw [← Nat.add_assoc, defaultWeight, defaultWeight]
    exact div_le_div_of_nonneg_right (mul_le_mul_of_nonneg_left hpower hscore) (Nat.cast_nonneg _)

theorem defaultWeight_three (score : Nat) : (defaultWeight score 3 : ℚ) = score / (4 : ℕ) := by
  rw [defaultWeight]
  norm_num
  ring

theorem defaultWeight_four (score : Nat) : (defaultWeight score 4 : ℚ) = score / (2 : ℕ) := by
  rw [defaultWeight]
  norm_num
  ring

/-- Three levels earn at most a quarter of the score. -/
theorem defaultWeight_le_quarter (score : Nat) (h : passed ≤ 3) :
    (defaultWeight score passed : ℚ) ≤ score / (4 : ℕ) :=
  defaultWeight_three score ▸ defaultWeight_le_defaultWeight h

/-- Four levels earn at least a half of the score. -/
theorem half_le_defaultWeight (score : Nat) (h : 4 ≤ passed) :
    score / (2 : ℕ) ≤ (defaultWeight score passed : ℚ) :=
  defaultWeight_four score ▸ defaultWeight_le_defaultWeight h

/-- A default weight in sixteenths. -/
def defaultSixteenths (score : Nat) : Nat → Nat
  | 0 => 0
  | further + 1 => score * Nat.pow 2 further

theorem defaultSixteenths_le (score : Nat) (h : passed ≤ levelCount) :
    defaultSixteenths score passed ≤ score * 16 := by
  cases passed with
  | zero => exact Nat.zero_le _
  | succ further =>
    exact Nat.mul_le_mul_left score (Nat.pow_le_pow_right (by decide) (Nat.le_of_succ_le_succ h))

open Binary64 in
/-- The doubles of a default weight are not rounded on the way. -/
theorem holds_defaultWeight (hscore : score < word32Limit) (hpassed : passed ≤ levelCount) :
    Holds (defaultWeight score passed) (defaultSixteenths score passed) (-4) := by
  have hbound := defaultSixteenths_le score hpassed
  have hlimit : word32Limit * 16 < 2 ^ 53 := by decide
  cases passed with
  | zero => exact Holds.ofNat (n := 0) (by decide)
  | succ further =>
    rw [defaultSixteenths] at hbound ⊢
    have hpower : Nat.pow 2 further < 2 ^ 53 :=
      Nat.pow_lt_pow_right (by decide) (by rw [levelCount] at hpassed; omega)
    have hproduct := (Holds.ofNat (n := score) (by omega)).mul (.ofNat hpower)
      ⟨by omega, by decide, by decide⟩
    exact hproduct.div_two_pow (.two_pow (j := 4) (by decide)) ⟨by omega, by decide, by decide⟩

open Binary64 in
theorem value_defaultWeight (hscore : score < word32Limit) (hpassed : passed ≤ levelCount) :
    value (defaultWeight score passed) = defaultWeight score passed := by
  rw [(holds_defaultWeight hscore hpassed).value_eq]
  cases passed with
  | zero => simp [defaultSixteenths, defaultWeight]
  | succ further =>
    rw [defaultSixteenths, defaultWeight, Nat.cast_mul, div_eq_mul_inv]
    norm_num

end DefaultWeights

/-- A rule with the default weights of its score, which has 32 bits. -/
structure Rule.DefaultWeights (rule : Rule) : Prop where
  score : rule.score < word32Limit
  weights : rule.weights = .ofScore rule.score

/-- A report with the default weight of its score. -/
structure Report.DefaultWeight (report : Report) : Prop where
  score : report.score < word32Limit
  weight : report.weight = defaultWeight report.score report.checklist.passedCount

theorem Rule.DefaultWeights.report {rule : Rule} {program : Program} {config : Config}
    {report : Report} (h : rule.DefaultWeights)
    (hreport : rule.assess program config = .ok report) : report.DefaultWeight := by
  rw [eq_reportOn_of_assess hreport]
  constructor
  case score => exact h.score
  case weight =>
    have hentry (passed : Fin (levelCount + 1)) :
        (WeightTable.ofScore rule.score).get passed = defaultWeight rule.score passed :=
      Vector.getElem_ofFn ..
    rw [reportOn, weight, h.weights, hentry]
    simp only [Nat.min_eq_left (Checklist.passedCount_le _)]

theorem Report.DefaultWeight.value_eq {report : Report} (h : report.DefaultWeight) :
    Binary64.value report.weight = defaultWeight report.score report.checklist.passedCount := by
  rw [h.weight, value_defaultWeight h.score report.checklist.passedCount_le]

namespace Board

open Binary64

variable {board : Board} {report : Report}

/-- The totals of a board without rounding: each weight is the number that the double stands for. -/
def exactTotals (board : Board) : Totals ℚ :=
  board.reports.foldl (fun totals report => totals.record report.score (value report.weight)) .zero

theorem exactTotals_record (board : Board) (report : Report) :
    (board.record report).exactTotals =
      board.exactTotals.record report.score (value report.weight) := by
  rw [exactTotals, record, Array.foldl_push]
  rfl

/-- A report of at most three levels does not raise the risk. -/
theorem record_risk_le (h : report.DefaultWeight) (hfew : report.checklist.passedCount ≤ 3) :
    (board.record report).exactTotals.risk ≤ board.exactTotals.risk := by
  have hquarter := defaultWeight_le_quarter report.score hfew
  have hhalf := hquarter.trans (quarter_le_half report.score)
  rw [exactTotals_record, h.value_eq, Totals.risk_le_iff]
  exact ⟨fun hlow => hlow.record hquarter, fun hmoderate => hmoderate.record hhalf⟩

/-- A report of four or five levels does not lower the risk. -/
theorem le_record_risk (h : report.DefaultWeight) (hmany : 4 ≤ report.checklist.passedCount) :
    board.exactTotals.risk ≤ (board.record report).exactTotals.risk := by
  have hhalf := half_le_defaultWeight report.score hmany
  have hquarter := (quarter_le_half report.score).trans hhalf
  rw [exactTotals_record, h.value_eq, Totals.risk_le_iff]
  exact ⟨fun hlow => hlow.of_record hquarter, fun hmoderate => hmoderate.of_record hhalf⟩

/-- Totals are within a part of the score if the weight of each report is. -/
theorem within_foldl_record {parts : Nat} {reports : List Report}
    (h : ∀ report ∈ reports, value report.weight ≤ report.score / (parts : ℚ))
    (hboard : board.exactTotals.Within parts) :
    (reports.foldl record board).exactTotals.Within parts := by
  induction reports generalizing board with
  | nil => exact hboard
  | cons report rest ih =>
    rw [List.foldl_cons]
    apply ih fun report hreport => h report (List.mem_cons_of_mem _ hreport)
    rw [exactTotals_record]
    exact hboard.record (h report List.mem_cons_self)

/-- The totals of a board have not been rounded. -/
structure Unrounded (board : Board) : Prop where
  score : board.exactTotals.score = board.totals.score
  weight : board.exactTotals.weight = value board.totals.weight
  sixteenths : ∃ n ≤ board.totals.score * 16, Holds board.totals.weight n (-4)

/-- Before its first report a board has nothing that could have been rounded. -/
theorem unrounded_empty : ({} : Board).Unrounded := by
  have hzero : Holds (({} : Board).totals.weight) 0 (-4) := Holds.ofNat (n := 0) (by decide)
  constructor
  case score => rfl
  case weight =>
    rw [hzero.value_eq, Nat.cast_zero, zero_mul]
    rfl
  case sixteenths => exact ⟨0, Nat.zero_le _, hzero⟩

/-- One more default weight is added without rounding, since the sum of the sixteenths stays within
53 digits. -/
theorem Unrounded.record (h : board.Unrounded) (hreport : report.DefaultWeight)
    (hsmall : (board.record report).totals.score < 2 ^ 49) : (board.record report).Unrounded := by
  obtain ⟨hscore, hweight, n, hn, hholds⟩ := h
  have hpassed := report.checklist.passedCount_le
  have hadded := holds_defaultWeight hreport.score hpassed
  have hbound := defaultSixteenths_le report.score hpassed
  rw [← hreport.weight] at hadded
  have htotal : (board.record report).totals.score = board.totals.score + report.score := rfl
  have hsum := hholds.add hadded ⟨by omega, by decide, by decide⟩
  constructor
  case score =>
    rw [exactTotals_record, htotal, ← hscore]
    rfl
  case weight =>
    have hvalue : value (board.totals.weight + report.weight) =
        value board.totals.weight + value report.weight := by
      rw [hsum.value_eq, hholds.value_eq, hadded.value_eq, Nat.cast_add, add_mul]
    rw [exactTotals_record, Totals.record, hweight, ← hvalue]
    rfl
  case sixteenths => exact ⟨_, by omega, hsum⟩

theorem unrounded_foldl_record {reports : List Report}
    (h : ∀ report ∈ reports, report.DefaultWeight)
    (hboard : board.totals.score < 2 ^ 49 → board.Unrounded)
    (hsmall : (reports.foldl record board).totals.score < 2 ^ 49) :
    (reports.foldl record board).Unrounded := by
  induction reports generalizing board with
  | nil => exact hboard hsmall
  | cons report rest ih =>
    apply ih (fun report hreport => h report (List.mem_cons_of_mem _ hreport)) ?_ hsmall
    intro hrecorded
    have hbefore : board.totals.score < 2 ^ 49 := Nat.lt_of_le_of_lt (Nat.le_add_right ..) hrecorded
    exact (hboard hbefore).record (h report List.mem_cons_self) hrecorded

/-- The share of a score that the risk compares with is not rounded either. -/
theorem le_share_iff {x : Float} {n score e : Nat} (hx : Holds x n (-4)) (hn : n < 2 ^ 53)
    (hscore : score < 2 ^ 49) (he : e ≤ 4) :
    x ≤ ((score : Nat) : Float) / ((2 ^ e : Nat) : Float) ↔
      value x ≤ ((score : Nat) : ℚ) / ((2 ^ e : Nat) : ℚ) := by
  have hquotient : Holds (Float.ofNat score / Float.ofNat (2 ^ e)) score (0 - e) :=
    (Holds.ofNat (by omega)).div_two_pow (.two_pow (by omega)) ⟨by omega, by omega, by omega⟩
  have hshift : score <<< (4 - e) < 2 ^ 53 := by
    have hpower : 2 ^ (4 - e) ≤ 2 ^ 4 := Nat.pow_le_pow_right (by decide) (by omega)
    have := Nat.mul_le_mul_left score hpower
    rw [Nat.shiftLeft_eq]
    omega
  have hsixteenths : Holds (Float.ofNat score / Float.ofNat (2 ^ e)) (score <<< (4 - e)) (-4) := by
    have hpower : (-4 : Int) + (4 - e : Nat) = 0 - e := by omega
    rwa [Holds.shiftLeft_iff hshift, hpower]
  have hvalue : value (Float.ofNat score / Float.ofNat (2 ^ e)) = score / (2 ^ e : Nat) := by
    rw [hquotient.value_eq, zero_sub, zpow_neg, zpow_natCast, Nat.cast_pow, Nat.cast_ofNat,
      div_eq_mul_inv]
  change x ≤ Float.ofNat score / Float.ofNat (2 ^ e) ↔ _
  rw [hx.le_iff hsixteenths hn hshift, hvalue]

/-- The risk of totals that have not been rounded is that of the exact totals. -/
theorem Unrounded.risk_eq (h : board.Unrounded) (hsmall : board.totals.score < 2 ^ 49) :
    board.risk = board.exactTotals.risk := by
  obtain ⟨hscore, hweight, n, hn, hholds⟩ := h
  have hquarter := le_share_iff (e := 2) hholds (by omega) hsmall (by decide)
  have hhalf := le_share_iff (e := 1) hholds (by omega) hsmall (by decide)
  rw [risk, Totals.risk, Totals.risk, hscore, hweight, RiskLevel.ofTotals, RiskLevel.ofTotals]
  exact if_congr hquarter rfl (if_congr hhalf rfl rfl)

end Board

/-- Without some level only those before it are passed. -/
theorem Checklist.Stepwise.passedCount_le {checklist : Checklist} {level : Level}
    (h : checklist.Stepwise) (hnot : checklist.passed level = false) :
    checklist.passedCount ≤ Level.all.idxOf level := by
  have hbeyond : level ∉ Level.all.take checklist.passedCount := by
    rw [← h.passed_iff, hnot]
    exact Bool.false_ne_true
  exact Nat.le_of_not_lt (mt (List.mem_take_iff_idxOf_lt level.mem_all).mpr hbeyond)

section Runs

variable {program : Program} {config : Config} {rules : List Rule} {reports : List Report}

/-- No rule of a list passes the given level. -/
def NonePasses (program : Program) (config : Config) (rules : List Rule) (level : Level) : Prop :=
  ∀ rule ∈ rules, ∀ report, rule.assess program config = .ok report →
    report.checklist.passed level = false

theorem defaultWeight_of_mem (hdefault : ∀ rule ∈ rules, rule.DefaultWeights)
    (hreports : (rules.mapM fun rule : Rule => rule.assess program config) = .ok reports) :
    ∀ report ∈ reports, report.DefaultWeight := by
  intro report hreport
  obtain ⟨rule, hrule, hassess⟩ := exists_mem_of_mapM_eq_ok hreports hreport
  exact (hdefault rule hrule).report hassess

/-- Rules that do not pass some level earn no more than the levels before it do. -/
theorem NonePasses.exactTotals_within {level : Level} {parts : Nat}
    (h : NonePasses program config rules level)
    (hdefault : ∀ rule ∈ rules, rule.DefaultWeights)
    (hreports : (rules.mapM fun rule : Rule => rule.assess program config) = .ok reports)
    (hearned : ∀ score : Nat, defaultWeight score (Level.all.idxOf level) = score / (parts : ℚ)) :
    (Board.ofReports reports).exactTotals.Within parts := by
  refine Board.within_foldl_record (fun report hreport => ?_) (Totals.within_empty parts)
  obtain ⟨rule, hrule, hassess⟩ := exists_mem_of_mapM_eq_ok hreports hreport
  have hfew := (Rule.stepwise_of_assess hassess).passedCount_le (h rule hrule report hassess)
  rw [(defaultWeight_of_mem hdefault hreports report hreport).value_eq, ← hearned]
  exact defaultWeight_le_defaultWeight hfew

end Runs

/-- The direction of the risk under default weights. Recorded on a board with any reports, a report
of at most three levels does not raise the risk of the exact totals, and one of four or five levels
does not lower it. So a list of rules ends with a low risk if none of them passes the fourth level,
and with a risk that is not high if none passes the fifth. As long as the total score is less than
`2 ^ 49`, the totals that are computed are the exact ones. -/
theorem risk_moves_with_levels (program : Program) (config : Config) :
    (∀ (board : Board) (rule : Rule) (report : Report), rule.DefaultWeights →
      rule.assess program config = .ok report →
        (report.checklist.passedCount ≤ 3 →
          (board.record report).exactTotals.risk ≤ board.exactTotals.risk) ∧
        (4 ≤ report.checklist.passedCount →
          board.exactTotals.risk ≤ (board.record report).exactTotals.risk)) ∧
    ∀ (parallel : Bool) (rules : List Rule), (∀ rule ∈ rules, rule.DefaultWeights) →
      ∃ board, assessRules program config parallel rules = .ok board ∧
        (NonePasses program config rules .sequence → board.exactTotals.risk = .low) ∧
        (NonePasses program config rules .parameter → board.exactTotals.risk ≠ .high) ∧
        (board.totals.score < 2 ^ 49 →
          board.exactTotals = ⟨board.totals.score, Binary64.value board.totals.weight⟩ ∧
            board.risk = board.exactTotals.risk) := by
  refine ⟨fun board rule report hdefault hreport => ?step, fun parallel rules hdefault => ?run⟩
  case step =>
    have hweight := hdefault.report hreport
    exact ⟨Board.record_risk_le hweight, Board.le_record_risk hweight⟩
  case run =>
    obtain ⟨reports, hreports⟩ :=
      exists_mapM_eq_ok (fun rule : Rule => rule.exists_report program config) rules
    refine ⟨Board.ofReports reports, ?ok, fun hnone => ?low, fun hnone => ?moderate,
      fun hsmall => ?exact⟩
    case ok =>
      rw [assessRules_eq, hreports]
      rfl
    case low =>
      rw [Totals.risk_eq_low_iff]
      exact hnone.exactTotals_within hdefault hreports defaultWeight_three
    case moderate =>
      rw [Totals.risk_ne_high_iff]
      exact hnone.exactTotals_within hdefault hreports defaultWeight_four
    case exact =>
      have hunrounded : (Board.ofReports reports).Unrounded :=
        Board.unrounded_foldl_record (defaultWeight_of_mem hdefault hreports)
          (fun _ => Board.unrounded_empty) hsmall
      refine ⟨?_, hunrounded.risk_eq hsmall⟩
      rw [← hunrounded.score, ← hunrounded.weight]

/-- At a depth of one a rule passes three levels, and at a depth of two it passes four. -/
theorem risk_moves_with_levels_readBeforeSend :
    let rule := Rule.readBeforeSend
    let shallow : Report := rule.reportOn .readsThenSends []
    let deep : Report := rule.reportOn .readsThenSends [.readsThenSends]
    rule.DefaultWeights ∧
      rule.assess .readsThenSends ⟨1, .loose⟩ = .ok shallow ∧
      rule.assess .readsThenSends ⟨2, .loose⟩ = .ok deep ∧
      shallow.checklist.passedCount ≤ 3 ∧ 4 ≤ deep.checklist.passedCount ∧
      let board := Board.ofReports [shallow]
      assessRules .readsThenSends ⟨1, .loose⟩ true [rule] = .ok board ∧
        NonePasses .readsThenSends ⟨1, .loose⟩ [rule] .sequence ∧
        board.exactTotals.risk = .low ∧ board.risk = .low ∧
        board.exactTotals.risk ≤ (board.record deep).exactTotals.risk ∧
        (board.record shallow).exactTotals.risk ≤ board.exactTotals.risk := by
  intro rule shallow deep
  have hdefault : rule.DefaultWeights := ⟨by decide, rfl⟩
  have hrules : ∀ other ∈ [rule], other.DefaultWeights := List.forall_mem_singleton.mpr hdefault
  have hshallow : rule.assess .readsThenSends ⟨1, .loose⟩ = .ok shallow :=
    Rule.assess_of_evidence (by decide +kernel)
  have hdeep : rule.assess .readsThenSends ⟨2, .loose⟩ = .ok deep :=
    Rule.assess_of_evidence (by decide +kernel)
  have hfew : shallow.checklist.passedCount ≤ 3 := by decide +kernel
  have hmany : 4 ≤ deep.checklist.passedCount := by decide +kernel
  have hnone : NonePasses .readsThenSends ⟨1, .loose⟩ [rule] .sequence := by
    refine List.forall_mem_singleton.mpr fun report hreport => ?_
    obtain rfl := Except.ok.inj (hshallow.symm.trans hreport)
    rfl
  obtain ⟨hstep, hrun⟩ := risk_moves_with_levels .readsThenSends ⟨1, .loose⟩
  obtain ⟨board, hboard, hlow, -, hexact⟩ := hrun true [rule] hrules
  obtain rfl : Board.ofReports [shallow] = board := by
    have hlisted : ([rule].mapM fun rule => rule.assess .readsThenSends ⟨1, .loose⟩) =
        .ok [shallow] :=
      mapM_eq_ok_iff.mpr (.cons hshallow .nil)
    rw [assessRules_eq, hlisted] at hboard
    exact Except.ok.inj hboard
  obtain ⟨-, hrisk⟩ := hexact (by decide)
  exact ⟨hdefault, hshallow, hdeep, hfew, hmany, hboard, hnone, hlow hnone,
    hrisk.trans (hlow hnone),
    ((risk_moves_with_levels .readsThenSends ⟨2, .loose⟩).1 _ rule deep hdefault hdeep).2 hmany,
    (hstep _ rule shallow hdefault hshallow).1 hfew⟩

end DalvikRules
