import DalvikRules.Document.Sarif
import DalvikRules.Proofs.BoardContent

/-!
# What the log of results shows

A log of results is read back here: it has one run, and every location of a result has one logical
location. Read back, the log of a list of rules has a result for each rule whose permissions are all
granted, in the order of the rules. What a result says follows from the report of its rule alone:
the titles are those of the first levels, as many as the confidence counts, and the locations are
the callers that take both steps in order.
-/

namespace DalvikRules

namespace Sarif

open Json

/-- The member of an object with the given name. -/
def memberOf? (name : String) : Value → Option Value
  | .object members => Value.member? name members
  | _ => none

/-- The items of a list. -/
def itemsOf? : Value → Option (List Value)
  | .array items => some items
  | _ => none

/-- The characters of a text. -/
def textOf? : Value → Option String
  | .string text => some text
  | _ => none

/-- The name of the one logical location that a location has. -/
def locationName? (location : Value) : Option String := do
  let [logical] ← memberOf? "logicalLocations" location >>= itemsOf? | none
  memberOf? "name" logical >>= textOf?

/-- Reads a result. -/
def Result.ofDocument? (result : Value) : Option Result := do
  let message ← memberOf? "message" result >>= memberOf? "text" >>= textOf?
  let locations ← memberOf? "locations" result >>= itemsOf?
  return ⟨message, ← locations.mapM locationName?⟩

/-- Reads the results of the one run that a log has. -/
def resultsOf? (log : Value) : Option (List Result) := do
  let [run] ← memberOf? "runs" log >>= itemsOf? | none
  (← memberOf? "results" run >>= itemsOf?).mapM Result.ofDocument?

/-- A list is read back if each of its elements is. -/
private theorem mapM_map_eq_some {α β : Type} {write : α → β} {read : β → Option α}
    (h : ∀ a, read (write a) = some a) (l : List α) : (l.map write).mapM read = some l := by
  induction l with
  | nil => rfl
  | cons a rest ih =>
    rw [List.map_cons, List.mapM_cons, h, ih]
    rfl

theorem locationName?_location (name : String) : locationName? (location name) = some name :=
  rfl

theorem Result.ofDocument?_document (result : Result) :
    Result.ofDocument? result.document = some result := by
  have hread : Result.ofDocument? result.document =
      (result.locations.map location).mapM locationName? >>= fun locations =>
        some ⟨result.message, locations⟩ := rfl
  rw [hread, mapM_map_eq_some locationName?_location]
  rfl

/-- The results of a board are read back from its log. -/
theorem resultsOf?_document (board : Board) (invocation : Invocation) :
    resultsOf? (document board invocation) = some (results board) :=
  mapM_map_eq_some Result.ofDocument?_document (results board)

/-- What a result says about a rule with the given report. -/
structure Result.Shows (result : Result) (rule : Rule) (report : Report) : Prop where
  /-- In parentheses stand the titles of the first levels, one for each twenty percent. -/
  message : result.message =
    rule.label ++ ": confidence " ++ toString report.confidence ++ "%, score " ++
      toString rule.score ++ ", weight " ++ Decimal.Style.plain.write report.weight ++ " (" ++
      String.intercalate ", " ((Level.all.take (report.confidence / 20)).map Level.title) ++ ")"
  /-- Each location is a caller that takes both steps in order. -/
  locations : result.locations =
    report.sequenceCallers.map fun caller => caller.className ++ "->" ++ caller.name
  ascending : report.sequenceCallers.Pairwise fun caller next => compare caller next = .lt
  located : result.locations = [] ↔ report.checklist.passed .sequence = false

end Sarif

namespace Rule

variable {rule : Rule} {program : Program} {config : Config} {report : Report}

theorem granted_iff :
    rule.granted program = true ↔
      ∀ permission ∈ rule.permissions, permission ∈ program.permissions := by
  simp [granted]

/-- A report carries the label of its rule, and its first level is the rule's permissions. -/
theorem label_of_assess (h : rule.assess program config = .ok report) :
    report.rule = rule.label ∧ report.checklist.passed .permission = rule.granted program := by
  rw [eq_reportOn_of_assess h]
  exact ⟨rfl, rfl⟩

/-- A report has some confidence precisely if the permissions of its rule are granted. -/
theorem confidence_pos_iff (h : rule.assess program config = .ok report) :
    0 < report.confidence ↔ rule.granted program = true := by
  have hfirst : ∀ count : Fin (levelCount + 1),
      Level.permission ∈ Level.all.take count ↔ 0 < count.val * 20 := by
    decide
  have hcount := Nat.lt_succ_of_le report.checklist.passedCount_le
  rw [← (label_of_assess h).2, (stepwise_of_assess h).passed_iff, hfirst ⟨_, hcount⟩,
    confidence_of_assess h, Checklist.confidence]

/-- What the log says about a rule is said of its report. -/
theorem shows_of_assess (h : rule.assess program config = .ok report) :
    (Sarif.Result.ofReport report).Shows rule report := by
  constructor
  case message =>
    have hlevels : report.checklist.passedLevels = Level.all.take (report.confidence / 20) := by
      rw [confidence_of_assess h, Checklist.confidence, Nat.mul_div_cancel _ (by decide)]
      exact (stepwise_of_assess h).passedLevels_eq
    rw [← (label_of_assess h).1, ← score_of_assess h, ← hlevels]
    rfl
  case locations => rfl
  case ascending => exact ascending_of_assess h
  case located =>
    rw [eq_reportOn_of_assess h]
    simp [Sarif.Result.ofReport, reportOn, Checklist.passed, checklist]

end Rule

/-- The log of a list of rules has one result for each rule whose permissions are all granted, in
the order of the rules, and none for any other rule. Each result shows the report of its rule. -/
theorem log_shows_reports (program : Program) (config : Config) (parallel : Bool)
    (rules : List Rule) (invocation : Sarif.Invocation) :
    ∃ board, assessRules program config parallel rules = .ok board ∧
      ∃ results, Sarif.resultsOf? (Sarif.document board invocation) = some results ∧
        List.Forall₂
          (fun rule result => ∃ report, rule.assess program config = .ok report ∧
            result.Shows rule report)
          (rules.filter fun rule =>
            ∀ permission ∈ rule.permissions, permission ∈ program.permissions)
          results := by
  obtain ⟨reports, hreports⟩ :=
    exists_mapM_eq_ok (fun rule : Rule => rule.exists_report program config) rules
  refine ⟨Board.ofReports reports, ?_, _, Sarif.resultsOf?_document _ invocation, ?_⟩
  · rw [assessRules_eq, hreports]
    rfl
  · have hlisted : (Board.ofReports reports).reports.toList = reports :=
      (Board.foldl_record {} reports).1
    have hkept {rule : Rule} {report : Report} (h : rule.assess program config = .ok report) :
        decide (∀ permission ∈ rule.permissions, permission ∈ program.permissions) = true ↔
          decide (0 < report.confidence) = true := by
      rw [decide_eq_true_iff, decide_eq_true_iff, Rule.confidence_pos_iff h, Rule.granted_iff]
    have hfiltered := List.rel_filter (fun _ _ h => hkept h) (mapM_eq_ok_iff.mp hreports)
    rw [Sarif.results, hlisted, List.forall₂_map_right_iff]
    exact hfiltered.imp fun rule report h => ⟨report, h, Rule.shows_of_assess h⟩

end DalvikRules
