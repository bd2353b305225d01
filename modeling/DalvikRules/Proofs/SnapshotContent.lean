import DalvikRules.Proofs.Agreement
import DalvikRules.Proofs.CallPairs
import DalvikRules.Proofs.ReportCoherence
import DalvikRules.Snapshot
import Mathlib.Data.Set.Basic

/-!
# What a report reads of a snapshot

The report of a rule does not depend on how a snapshot is arranged: methods and permissions count
as sets. And of the methods it reads only those that lead up from the two methods of the rule, so
code without any connection to them cannot change the verdict.
-/

namespace DalvikRules

namespace Snapshot

variable {snapshot other : Snapshot}

theorem mem_bodies_program {body : Body} :
    body ∈ snapshot.program.bodies ↔
      ∃ written ∈ snapshot.methods, written.isNamed = true ∧ written.body = body := by
  simp only [program, List.mem_map, List.mem_filter, and_assoc]

/-- Two snapshots list the same methods and the same permissions, in whatever order and however
often. -/
structure SameMembers (snapshot other : Snapshot) : Prop where
  methods : ∀ written, written ∈ snapshot.methods ↔ written ∈ other.methods
  permissions : ∀ permission, permission ∈ snapshot.permissions ↔ permission ∈ other.permissions

theorem SameMembers.granted_eq (h : snapshot.SameMembers other) (rule : Rule) :
    rule.granted snapshot.program = rule.granted other.program := by
  have hpermissions : snapshot.program.permissions = other.program.permissions := by
    refine Std.ExtTreeSet.ext_mem fun permission => ?_
    simp only [program, Std.ExtTreeSet.mem_ofList, List.contains_iff_mem, h.permissions]
  rw [Rule.granted, Rule.granted, hpermissions]

theorem SameMembers.agreeOn (h : snapshot.SameMembers other) :
    snapshot.program.AgreeOn other.program Set.univ where
  closed _ _ caller _ := Set.mem_univ caller
  bodies _ _ body _ := by simp only [mem_bodies_program, h.methods]

/-- The snapshot with further methods listed after its own. -/
def append (snapshot : Snapshot) (extra : List MethodRecord) : Snapshot :=
  { snapshot with methods := snapshot.methods ++ extra }

/-- The snapshot with everything listed backwards first and then once more in its order. -/
def mirrored (snapshot : Snapshot) : Snapshot where
  permissions := snapshot.permissions.reverse ++ snapshot.permissions
  methods := snapshot.methods.reverse ++ snapshot.methods

theorem sameMembers_mirrored (snapshot : Snapshot) : snapshot.SameMembers snapshot.mirrored where
  methods written := by simp [mirrored]
  permissions permission := by simp [mirrored]

/-- A snapshot in which `run` sends a text and reads one through a helper, by a method that it calls
under another spelling of its class. -/
def readsThenSends : Snapshot where
  permissions := ["android.permission.READ_SMS", "android.permission.SEND_SMS"]
  methods := [
    { className := "LA;", name := "read", descriptor := "()V", instructions := [
      { mnemonic := "invoke-virtual", parameter := some "LS;->query()V" }] },
    { className := "LA;", name := "run", descriptor := "()V", instructions := [
      { mnemonic := "invoke-static", parameter := some "LA->read()V" },
      { mnemonic := "invoke-virtual", parameter := some "LT;->send()V" }] }]

/-- A list of methods that call each other and nothing else; one of them has the name of a method of
a rule, but not its class. -/
def logger : List MethodRecord := [
  { className := "LLog;", name := "query", instructions := [
    { mnemonic := "invoke-static", parameter := some "LLog;->flush()V" }] },
  { className := "LLog;", name := "flush", instructions := [
    { mnemonic := "invoke-static", parameter := some "LLog;->query()V" }] }]

end Snapshot

/-- The methods that an assessment of a rule can come upon: the two methods of the rule and all
their transitive callers. -/
def Rule.reach (rule : Rule) (program : Program) : Set MethodRef :=
  program.Above rule.first ∪ program.Above rule.second

namespace Rule

variable {rule : Rule}

theorem first_mem_reach (program : Program) : rule.first ∈ rule.reach program :=
  .inl (Program.self_mem_above _)

theorem second_mem_reach (program : Program) : rule.second ∈ rule.reach program :=
  .inr (Program.self_mem_above _)

theorem reach_closed {program : Program} : ∀ method ∈ rule.reach program, ∀ caller,
    program.CalledBy method caller → caller ∈ rule.reach program := by
  rintro method (hfirst | hsecond) caller hcall
  · exact .inl (Program.mem_above_of_calledBy hfirst hcall)
  · exact .inr (Program.mem_above_of_calledBy hsecond hcall)

/-- A body that mentions a method within reach has the key of one: it is declared with the key of
that method, or it belongs to a caller, which is within reach as well. -/
theorem exists_reach_of_mentions {program : Program} {body : Body} {method : MethodRef}
    (hbody : body ∈ program.bodies) (hmethod : method ∈ rule.reach program)
    (hmentions : body.Mentions method.key) :
    ∃ near ∈ rule.reach program, body.method.key = near.key := by
  rcases hmentions with hkey | hinvokes
  · exact ⟨method, hmethod, hkey⟩
  · have hcall : program.CalledBy method body.method :=
      Program.calledBy_iff.mpr (Program.mem_callers.mpr ⟨body, hbody, rfl, hinvokes⟩)
    exact ⟨body.method, reach_closed method hmethod body.method hcall, rfl⟩

/-- Further methods are unrelated to a rule if none of them has the key of a method that is within
reach once they are part of the snapshot. -/
def Unrelated (rule : Rule) (snapshot : Snapshot) (extra : List MethodRecord) : Prop :=
  ∀ written ∈ extra, ∀ method ∈ rule.reach (snapshot.append extra).program,
    written.body.method.key ≠ method.key

/-- Unrelated methods make no difference to what is within reach. -/
theorem Unrelated.agreeOn {snapshot : Snapshot} {extra : List MethodRecord}
    (h : rule.Unrelated snapshot extra) :
    (snapshot.append extra).program.AgreeOn snapshot.program
      (rule.reach (snapshot.append extra).program) where
  closed := reach_closed
  bodies method hmethod body hmentions := by
    rw [Snapshot.mem_bodies_program, Snapshot.mem_bodies_program]
    constructor
    · rintro ⟨written, hwritten, hnamed, hsame⟩
      rcases List.mem_append.mp hwritten with hold | hnew
      · exact ⟨written, hold, hnamed, hsame⟩
      · have hbody : body ∈ (snapshot.append extra).program.bodies :=
          Snapshot.mem_bodies_program.mpr ⟨written, hwritten, hnamed, hsame⟩
        obtain ⟨near, hnear, hkey⟩ := exists_reach_of_mentions hbody hmethod hmentions
        rw [← hsame] at hkey
        exact absurd hkey (h written hnew near hnear)
    · rintro ⟨written, hold, hrest⟩
      exact ⟨written, List.mem_append_left _ hold, hrest⟩

/-- Unrelated methods do not change a verdict. If no further method has the key of a method of the
rule or of one of its transitive callers, the report stays the same to the last detail. -/
theorem assess_append_unrelated (rule : Rule) (config : Config) (snapshot : Snapshot)
    (extra : List MethodRecord) (h : rule.Unrelated snapshot extra) :
    ∃ report, rule.assess snapshot.program config = .ok report ∧
      rule.assess (snapshot.append extra).program config = .ok report := by
  obtain ⟨report, hreport⟩ := rule.exists_report snapshot.program config
  have hgranted :
      rule.granted (snapshot.append extra).program = rule.granted snapshot.program := rfl
  have hsame := assess_eq_of_agreeOn hgranted h.agreeOn (first_mem_reach _) (second_mem_reach _)
    config
  exact ⟨report, hreport, hsame.trans hreport⟩

/-- A rule about reading before sending that asks for a permission. -/
def readBeforePermittedSend : Rule :=
  { readBeforeSend with permissions := ["android.permission.SEND_SMS"] }

theorem evidence_readsThenSends :
    readBeforePermittedSend.evidence Snapshot.readsThenSends.program {} =
      .ok [.readsThenSends] := by
  decide +kernel

theorem assess_append_unrelated_logger :
    readBeforePermittedSend.Unrelated Snapshot.readsThenSends Snapshot.logger ∧
    ∃ report, readBeforePermittedSend.assess Snapshot.readsThenSends.program {} = .ok report ∧
      readBeforePermittedSend.assess (Snapshot.readsThenSends.append Snapshot.logger).program {} =
        .ok report ∧
      report.findings = [.readsThenSends] := by
  let near : List MethodRef := [⟨"LS", "query"⟩, ⟨"LT;", "send"⟩, ⟨"LA;", "read"⟩, ⟨"LA;", "run"⟩]
  have hclosed : ∀ below ∈ near,
      ∀ caller ∈ ((Snapshot.readsThenSends.append Snapshot.logger).program.callers below).toList,
        caller ∈ near := by
    decide +kernel
  have hkeys : ∀ written ∈ Snapshot.logger, ∀ method ∈ near,
      written.body.method.key ≠ method.key := by
    decide +kernel
  have hunrelated :
      readBeforePermittedSend.Unrelated Snapshot.readsThenSends Snapshot.logger := by
    rintro written hwritten method (hfirst | hsecond)
    · exact hkeys written hwritten method (Program.mem_of_mem_above hclosed (by decide) hfirst)
    · exact hkeys written hwritten method (Program.mem_of_mem_above hclosed (by decide) hsecond)
  obtain ⟨report, hreport, hextended⟩ := assess_append_unrelated _ _ _ _ hunrelated
  exact ⟨hunrelated, report, hreport, hextended,
    findings_of_evidence evidence_readsThenSends hreport⟩

/-- The methods and the permissions of a snapshot count as sets. A snapshot that lists the same
ones in another order, or some of them more than once, gives the same report. -/
theorem assess_eq_of_same_members (rule : Rule) (config : Config) {snapshot other : Snapshot}
    (h : snapshot.SameMembers other) :
    ∃ report, rule.assess snapshot.program config = .ok report ∧
      rule.assess other.program config = .ok report := by
  obtain ⟨report, hreport⟩ := rule.exists_report snapshot.program config
  have hsame := assess_eq_of_agreeOn (h.granted_eq rule) h.agreeOn (Set.mem_univ _)
    (Set.mem_univ _) config
  exact ⟨report, hreport, hsame.symm.trans hreport⟩

theorem assess_eq_of_same_members_mirrored :
    Snapshot.readsThenSends.SameMembers Snapshot.readsThenSends.mirrored ∧
    ∃ report, readBeforePermittedSend.assess Snapshot.readsThenSends.program {} = .ok report ∧
      readBeforePermittedSend.assess Snapshot.readsThenSends.mirrored.program {} = .ok report ∧
      report.findings = [.readsThenSends] := by
  have hmembers := Snapshot.sameMembers_mirrored Snapshot.readsThenSends
  obtain ⟨report, hreport, hmirrored⟩ :=
    assess_eq_of_same_members readBeforePermittedSend {} hmembers
  exact ⟨hmembers, report, hreport, hmirrored,
    findings_of_evidence evidence_readsThenSends hreport⟩

end Rule

end DalvikRules
