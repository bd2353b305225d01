import DalvikRules.Proofs.CallOrdering
import DalvikRules.Proofs.CallPairs
import DalvikRules.Proofs.ReportCoherence

/-!
# How a rule spells its classes

A method is looked up by its key, so a rule may leave out the terminator of a class. The search for
predecessors remembers where it has been by references as they are written, though. On a cycle of
calls that leads through a method of the rule, another spelling of this method is visited as if it
were another method. The callers above it are then searched earlier, predecessors are found in
another order, and the first of them decides on the verdict. Away from such cycles the spelling
makes no difference: only methods with the key of the base may be visited twice, and a second visit
finds nothing that is not searched next anyway.
-/

namespace DalvikRules

/-- Two searches that have found the same methods and visited the same ones, except that methods of
one key may have been visited by only one of them. -/
structure Search.SameBut (key : MethodKey) (search other : Search) : Prop where
  found : search.found = other.found
  visited : ∀ method, method.key ≠ key → (method ∈ search.visited ↔ method ∈ other.visited)

namespace Search.SameBut

variable {key : MethodKey} {search other : Search}

theorem visit (h : search.SameBut key other) (method : MethodRef) :
    (search.visit method).SameBut key (other.visit method) where
  found := h.found
  visited visitor hkey := by
    simp only [Search.visit, MethodSet.mem_insert, h.visited visitor hkey]

theorem collect (h : search.SameBut key other) (method : MethodRef) :
    (search.collect method).SameBut key (other.collect method) where
  found := by simp only [Search.collect, h.found]
  visited visitor hkey := by
    simp only [Search.collect, MethodSet.mem_insert, h.visited visitor hkey]

theorem visit_left (h : search.SameBut key other) {method : MethodRef}
    (hmethod : method.key = key) : (search.visit method).SameBut key other where
  found := h.found
  visited visitor hkey := by
    have hne : visitor ≠ method := fun heq => hkey (heq ▸ hmethod)
    simp only [Search.visit, MethodSet.mem_insert, hne, false_or, h.visited visitor hkey]

end Search.SameBut

namespace Program

variable {program : Program} {top : MethodRef}

theorem callers_eq_of_key_eq {method other : MethodRef} (h : method.key = other.key) :
    program.callers method = program.callers other := by
  rw [callers, callers, h]

theorem find?_eq_of_key_eq {method other : MethodRef} (h : method.key = other.key) :
    program.find? method = program.find? other := by
  rw [find?, find?, h]

/-- No cycle of calls leads through the method and a method of another key. The method may call
itself. -/
def NoWayBack (program : Program) (method : MethodRef) : Prop :=
  ∀ caller, program.CalledBy method caller → caller.key ≠ method.key →
    ∀ above ∈ program.Above caller, above.key ≠ method.key

/-- It is enough to know a list that holds the callers of other keys and all callers of its
members. -/
theorem noWayBack_of_closed {method : MethodRef} {near : List MethodRef}
    (hcallers : ∀ caller ∈ (program.callers method).toList, caller.key ≠ method.key → caller ∈ near)
    (hclosed : ∀ below ∈ near, ∀ caller ∈ (program.callers below).toList, caller ∈ near)
    (hkeys : ∀ above ∈ near, above.key ≠ method.key) : program.NoWayBack method := by
  intro caller hcall hkey above habove
  have hcaller := hcallers caller (mem_toList_callers.mpr hcall) hkey
  exact hkeys above (mem_of_mem_above hclosed hcaller habove)

theorem NoWayBack.of_key_eq {method other : MethodRef} (h : program.NoWayBack method)
    (hkey : other.key = method.key) : program.NoWayBack other := by
  intro caller hcall hother above habove
  rw [hkey] at hother ⊢
  rw [calledBy_iff, callers_eq_of_key_eq hkey, ← calledBy_iff] at hcall
  exact h caller hcall hother above habove

/-- Where no method of a key lies above the stack, it is of no importance which methods of that key
were visited before. -/
theorem searchFrom_sameBut {key : MethodKey} {stack : List MethodRef} {search other : Search}
    (hstack : ∀ method ∈ stack, ∀ above ∈ program.Above method, above.key ≠ key)
    (h : search.SameBut key other) :
    (program.searchFrom top stack search).SameBut key (program.searchFrom top stack other) := by
  induction stack, search using searchFrom.induct program top generalizing other with
  | case1 search =>
    rw [searchFrom_nil, searchFrom_nil]
    exact h
  | case2 method rest search hmem ih =>
    obtain ⟨hmethod, hrest⟩ := List.forall_mem_cons.mp hstack
    have hmem' := (h.visited method (hmethod method (self_mem_above method))).mp hmem
    rw [searchFrom_cons_of_mem hmem, searchFrom_cons_of_mem hmem']
    exact ih hrest h
  | case3 method rest search hfresh hcalled ih =>
    obtain ⟨hmethod, hrest⟩ := List.forall_mem_cons.mp hstack
    have hfresh' := (h.visited method (hmethod method (self_mem_above method))).not.mp hfresh
    rw [searchFrom_cons_of_called hfresh hcalled, searchFrom_cons_of_called hfresh' hcalled]
    exact ih hrest (h.collect method)
  | case4 method rest search hfresh hopen ih =>
    obtain ⟨hmethod, hrest⟩ := List.forall_mem_cons.mp hstack
    have hfresh' := (h.visited method (hmethod method (self_mem_above method))).not.mp hfresh
    have hcallers : ∀ caller ∈ (program.callers method).toList ++ rest,
        ∀ above ∈ program.Above caller, above.key ≠ key :=
      List.forall_mem_append.mpr ⟨fun caller hcaller above habove =>
        hmethod above (above_subset_of_calledBy (mem_toList_callers.mp hcaller) habove), hrest⟩
    rw [searchFrom_cons_of_not_called hfresh hopen, searchFrom_cons_of_not_called hfresh' hopen]
    exact ih hcallers (h.visit method)

/-- A method with the callers that the stack is just being taken from adds nothing to the search:
those before it are visited already, and those after it are next on the stack in the same order. -/
theorem searchFrom_of_same_callers {caller : MethodRef} {before after : List MethodRef}
    {search : Search} (hlist : before ++ caller :: after = (program.callers caller).toList)
    (hopen : top ∉ program.callers caller) (hfresh : caller ∉ search.visited)
    (hbefore : ∀ method ∈ before, method ∈ search.visited) :
    program.searchFrom top (caller :: after) search =
      program.searchFrom top after (search.visit caller) := by
  have hvisited : ∀ method ∈ before ++ [caller], method ∈ (search.visit caller).visited :=
    List.forall_mem_append.mpr ⟨fun method hmethod => MethodSet.mem_insert.mpr
      (.inr (hbefore method hmethod)),
      List.forall_mem_singleton.mpr (MethodSet.mem_insert.mpr (.inl rfl))⟩
  have hsplit : (before ++ [caller]) ++ after = (program.callers caller).toList := by
    rw [List.append_assoc, List.singleton_append, hlist]
  rw [searchFrom_cons_of_not_called hfresh hopen, ← hsplit, searchFrom_append, searchFrom_append,
    searchFrom_of_visited hvisited]
  exact searchFrom_of_visited fun method hmethod => mem_visited_searchFrom hmethod

/-- A search through the callers of a method may leave out those of its own key. -/
theorem searchFrom_callers_sameBut {base : MethodRef} {before after : List MethodRef}
    {search other : Search} (hback : program.NoWayBack base) (hopen : top ∉ program.callers base)
    (hlist : before ++ after = (program.callers base).toList)
    (hbefore : ∀ caller ∈ before, caller ∈ search.visited)
    (h : search.SameBut base.key other) :
    (program.searchFrom top after search).SameBut base.key
      (program.searchFrom top (after.filter (·.key ≠ base.key)) other) := by
  induction after generalizing before search other with
  | nil =>
    rw [List.filter_nil, searchFrom_nil, searchFrom_nil]
    exact h
  | cons caller after ih =>
    have hlist' : (before ++ [caller]) ++ after = (program.callers base).toList := by
      rw [List.append_assoc, List.singleton_append, hlist]
    -- Whatever becomes of the caller, it is visited before the rest of the list is searched.
    have hnext {next : Search} (hbefore : ∀ caller ∈ before, caller ∈ next.visited)
        (hcaller : caller ∈ next.visited) : ∀ method ∈ before ++ [caller], method ∈ next.visited :=
      List.forall_mem_append.mpr ⟨hbefore, List.forall_mem_singleton.mpr hcaller⟩
    by_cases hkey : caller.key = base.key
    · rw [List.filter_cons_of_neg (by simpa using hkey)]
      by_cases hmem : caller ∈ search.visited
      · rw [searchFrom_cons_of_mem hmem]
        exact ih hlist' (hnext hbefore hmem) h
      · have hsame : program.callers caller = program.callers base := callers_eq_of_key_eq hkey
        rw [searchFrom_of_same_callers (hsame ▸ hlist) (hsame ▸ hopen) hmem hbefore]
        refine ih hlist' (hnext (fun method hmethod => ?_) ?_) (h.visit_left hkey)
        · exact MethodSet.mem_insert.mpr (.inr (hbefore method hmethod))
        · exact MethodSet.mem_insert.mpr (.inl rfl)
    · have hcall : program.CalledBy base caller := by
        rw [← mem_toList_callers, ← hlist]
        exact List.mem_append_right _ List.mem_cons_self
      have habove : ∀ method ∈ [caller], ∀ above ∈ program.Above method, above.key ≠ base.key :=
        List.forall_mem_singleton.mpr (hback caller hcall hkey)
      have hfirst (rest : List MethodRef) (search : Search) :
          program.searchFrom top (caller :: rest) search =
            program.searchFrom top rest (program.searchFrom top [caller] search) :=
        searchFrom_append program top [caller] rest search
      rw [List.filter_cons_of_pos (by simpa using hkey), hfirst after, hfirst (after.filter _)]
      refine ih hlist' (hnext (fun method hmethod => ?_) ?_) (searchFrom_sameBut habove h)
      · exact visited_searchFrom (hbefore method hmethod)
      · exact mem_visited_searchFrom List.mem_cons_self

/-- What a search from a method finds can be said without the method, as long as its key is on no
cycle and the top does not call it. -/
theorem predecessors_eq_of_not_called {base : MethodRef} (hback : program.NoWayBack base)
    (hopen : top ∉ program.callers base) :
    program.predecessors base top =
      (program.searchFrom top
        ((program.callers base).toList.filter (·.key ≠ base.key)) {}).found := by
  have hstart : (({} : Search).visit base).SameBut base.key {} :=
    Search.SameBut.visit_left ⟨rfl, fun _ _ => Iff.rfl⟩ rfl
  have hsame := searchFrom_callers_sameBut hback hopen (List.nil_append _)
    (fun _ hcaller => absurd hcaller List.not_mem_nil) hstart
  rw [predecessors, searchFrom_cons_of_not_called Std.ExtTreeSet.not_mem_empty hopen,
    List.append_nil]
  exact hsame.found

/-- Off all cycles the predecessors are the same methods in the same order, however the base is
spelled. The base itself is among them as it is spelled. -/
theorem map_key_predecessors {base other : MethodRef} (hkey : other.key = base.key)
    (hback : program.NoWayBack base) :
    (program.predecessors other top).map MethodRef.key =
      (program.predecessors base top).map MethodRef.key := by
  have hcallers : program.callers other = program.callers base := callers_eq_of_key_eq hkey
  by_cases hcalled : top ∈ program.callers base
  · have hsingle {method : MethodRef} (h : top ∈ program.callers method) :
        program.predecessors method top = [method] := by
      rw [predecessors, searchFrom_cons_of_called Std.ExtTreeSet.not_mem_empty h, searchFrom_nil]
      rfl
    rw [hsingle hcalled, hsingle (hcallers ▸ hcalled), List.map_singleton, List.map_singleton, hkey]
  · rw [predecessors_eq_of_not_called hback hcalled,
      predecessors_eq_of_not_called (hback.of_key_eq hkey) (hcallers ▸ hcalled), hcallers, hkey]

end Program

/-- A finding with its steps spelled as they are looked up. -/
def Finding.keyed (finding : Finding) : Finding :=
  { finding with
    first := ⟨finding.first.key.classKey, finding.first.key.name⟩
    second := ⟨finding.second.key.classKey, finding.second.key.name⟩ }

@[simp]
theorem Finding.caller_comp_keyed : Finding.caller ∘ Finding.keyed = Finding.caller := rfl

@[simp]
theorem Finding.sharesValue_comp_keyed :
    Finding.sharesValue ∘ Finding.keyed = Finding.sharesValue := rfl

/-- Two reports that agree in everything but the spelling of the steps in their findings. -/
structure Report.SameButSpelling (report other : Report) : Prop where
  rule : report.rule = other.rule
  checklist : report.checklist = other.checklist
  confidence : report.confidence = other.confidence
  score : report.score = other.score
  weight : report.weight = other.weight
  sequenceCallers : report.sequenceCallers = other.sequenceCallers
  parameterCallers : report.parameterCallers = other.parameterCallers
  findings : report.findings.map Finding.keyed = other.findings.map Finding.keyed

/-- Lists of methods with the same keys begin with methods of one key, if they begin at all. -/
theorem head?_cases_of_map_key {steps steps' : List MethodRef}
    (h : steps'.map MethodRef.key = steps.map MethodRef.key) :
    (steps'.head? = none ∧ steps.head? = none) ∨
      ∃ step' step, steps'.head? = some step' ∧ steps.head? = some step ∧ step'.key = step.key := by
  cases steps with
  | nil =>
    rw [List.map_nil, List.map_eq_nil_iff] at h
    exact .inl ⟨congrArg List.head? h, rfl⟩
  | cons step rest =>
    obtain ⟨step', _, rfl, hkey, -⟩ := List.map_eq_cons_iff.mp h
    exact .inr ⟨step', step, rfl, rfl, hkey⟩

namespace Program

variable {program : Program} {first second first' second' : MethodRef}

/-- What a caller shows depends on its two steps by their names only. -/
theorem finding?_keyed (mode : SequenceMode) (caller : MethodRef)
    (hfirst : (program.predecessors first' caller).map MethodRef.key =
      (program.predecessors first caller).map MethodRef.key)
    (hsecond : (program.predecessors second' caller).map MethodRef.key =
      (program.predecessors second caller).map MethodRef.key) :
    (program.finding? mode first' second' caller).map Finding.keyed =
      (program.finding? mode first second caller).map Finding.keyed := by
  rw [finding?, finding?]
  rcases head?_cases_of_map_key hfirst with
    ⟨hfirst', hfirst⟩ | ⟨firstStep', firstStep, hfirst', hfirst, hkeyFirst⟩
  · rw [hfirst', hfirst]
  rcases head?_cases_of_map_key hsecond with
    ⟨hsecond', hsecond⟩ | ⟨secondStep', secondStep, hsecond', hsecond, hkeySecond⟩
  · rw [hfirst', hfirst, hsecond', hsecond]
  have hnameFirst : firstStep'.name = firstStep.name := congrArg MethodKey.name hkeyFirst
  have hnameSecond : secondStep'.name = secondStep.name := congrArg MethodKey.name hkeySecond
  simp only [hfirst', hfirst, hsecond', hsecond, callsInOrder_eq, hnameFirst, hnameSecond]
  split
  · simp only [Option.map_some, Finding.keyed, hkeyFirst, hkeySecond]
  · rfl

/-- Off all cycles, what common callers show does not depend on how the two methods are spelled. -/
theorem findings_keyed (config : Config) (hkeyFirst : first'.key = first.key)
    (hkeySecond : second'.key = second.key) (hfirst : program.NoWayBack first)
    (hsecond : program.NoWayBack second) :
    (program.findings config first' second').map (·.map Finding.keyed) =
      (program.findings config first second).map (·.map Finding.keyed) := by
  have hshown (callers : List MethodRef) :
      (callers.filterMap (program.finding? config.mode first' second')).map Finding.keyed =
        (callers.filterMap (program.finding? config.mode first second)).map Finding.keyed := by
    rw [List.map_filterMap, List.map_filterMap]
    exact List.filterMap_congr fun caller _ => finding?_keyed config.mode caller
      (map_key_predecessors hkeyFirst hfirst) (map_key_predecessors hkeySecond hsecond)
  rw [findings, findings, callers_eq_of_key_eq hkeyFirst, callers_eq_of_key_eq hkeySecond]
  split
  · rfl
  · cases program.commonCallersFrom 1 config.maxDepth (program.callers first)
      (program.callers second) with
    | error error => rfl
    | ok result =>
      cases result with
      | none => rfl
      | some common => exact congrArg Except.ok (hshown common.toList)

end Program

namespace Rule

variable {rule : Rule} {program : Program}

/-- The rule with its two methods spelled in another way. -/
def respell (rule : Rule) (first second : MethodRef) : Rule :=
  { rule with first := first, second := second }

variable {first second : MethodRef}

theorem checklist_respell (findings : List Finding) (hfirst : first.key = rule.first.key)
    (hsecond : second.key = rule.second.key) :
    (rule.respell first second).checklist program findings = rule.checklist program findings := by
  rw [checklist, checklist, respell, Program.find?_eq_of_key_eq hfirst,
    Program.find?_eq_of_key_eq hsecond]
  rfl

theorem evidence_respell (config : Config) (hkeyFirst : first.key = rule.first.key)
    (hkeySecond : second.key = rule.second.key) (hfirst : program.NoWayBack rule.first)
    (hsecond : program.NoWayBack rule.second) :
    ((rule.respell first second).evidence program config).map (·.map Finding.keyed) =
      (rule.evidence program config).map (·.map Finding.keyed) := by
  rw [evidence, evidence, checklist_respell [] hkeyFirst hkeySecond]
  split
  · exact Program.findings_keyed config hkeyFirst hkeySecond hfirst hsecond
  · rfl

/-- Reports on findings that differ in the spelling of the steps differ in nothing else. -/
theorem reportOn_respell {findings findings' : List Finding} (hfirst : first.key = rule.first.key)
    (hsecond : second.key = rule.second.key)
    (h : findings.map Finding.keyed = findings'.map Finding.keyed) :
    (rule.reportOn program findings).SameButSpelling
      ((rule.respell first second).reportOn program findings') := by
  have hsequence : findings.isEmpty = findings'.isEmpty := by
    simpa using congrArg List.isEmpty h
  have hshares : findings.any Finding.sharesValue = findings'.any Finding.sharesValue := by
    simpa [List.any_map] using congrArg (List.any · Finding.sharesValue) h
  have hchecklist : rule.checklist program findings =
      (rule.respell first second).checklist program findings' := by
    rw [checklist_respell findings' hfirst hsecond]
    simp only [checklist, hsequence, hshares]
  constructor
  case rule => rfl
  case checklist => exact hchecklist
  case confidence => exact congrArg Checklist.confidence hchecklist
  case score => rfl
  case weight => exact congrArg (fun checklist => rule.weight checklist.passedCount) hchecklist
  case sequenceCallers =>
    simpa [reportOn] using congrArg (List.map Finding.caller) h
  case parameterCallers =>
    simpa [reportOn, sharingCallers, List.filter_map] using
      congrArg (fun found => (found.filter Finding.sharesValue).map Finding.caller) h
  case findings => exact h

/-- The spelling of the classes of a rule does not matter as long as neither of its methods is on a
cycle of calls through a method of another key; either may call itself. The two reports then differ
at most in the spelling of the steps that they name. -/
theorem assess_respell (rule : Rule) (program : Program) (config : Config)
    (hkeyFirst : first.key = rule.first.key) (hkeySecond : second.key = rule.second.key)
    (hfirst : program.NoWayBack rule.first) (hsecond : program.NoWayBack rule.second) :
    ∃ report respelled, rule.assess program config = .ok report ∧
      (rule.respell first second).assess program config = .ok respelled ∧
      report.SameButSpelling respelled := by
  obtain ⟨findings, hevidence, -⟩ := rule.exists_evidence program config
  obtain ⟨findings', hevidence', -⟩ := (rule.respell first second).exists_evidence program config
  have hkeyed : findings.map Finding.keyed = findings'.map Finding.keyed := by
    have hsame := evidence_respell config hkeyFirst hkeySecond hfirst hsecond
    rw [hevidence, hevidence'] at hsame
    exact (Except.ok.inj hsame).symm
  refine ⟨rule.reportOn program findings, (rule.respell first second).reportOn program findings',
    ?_, ?_, reportOn_respell hkeyFirst hkeySecond hkeyed⟩
  · rw [assess_eq, hevidence]
    rfl
  · rw [assess_eq, hevidence']
    rfl

end Rule

/-- A program that declares `query`, which calls itself, and reads through a helper. -/
def Program.queriesItself : Program where
  permissions := ∅
  bodies := [
    ⟨⟨"LA;", "read"⟩, "()V", [⟨0, "invoke-virtual", [], some "LS;->query()V"⟩]⟩,
    ⟨⟨"LA;", "run"⟩, "()V", [⟨0, "invoke-static", [], some "LA;->read()V"⟩,
      ⟨2, "invoke-virtual", [], some "LT;->send()V"⟩]⟩,
    ⟨⟨"LS;", "query"⟩, "()V", [⟨0, "invoke-virtual", [], some "LS;->query()V"⟩]⟩]

theorem Rule.assess_respell_queriesItself :
    (⟨"LS;", "query"⟩ : MethodRef).key = Rule.readBeforeSend.first.key ∧
      (⟨"LT", "send"⟩ : MethodRef).key = Rule.readBeforeSend.second.key ∧
      Program.queriesItself.NoWayBack Rule.readBeforeSend.first ∧
      Program.queriesItself.NoWayBack Rule.readBeforeSend.second ∧
      ∃ report respelled, Rule.readBeforeSend.assess .queriesItself {} = .ok report ∧
        (Rule.readBeforeSend.respell ⟨"LS;", "query"⟩ ⟨"LT", "send"⟩).assess .queriesItself {} =
          .ok respelled ∧
        report.SameButSpelling respelled := by
  let near : List MethodRef := [⟨"LA;", "read"⟩, ⟨"LA;", "run"⟩]
  have hclosed : ∀ below ∈ near,
      ∀ caller ∈ (Program.queriesItself.callers below).toList, caller ∈ near := by
    decide +kernel
  have hfirst : Program.queriesItself.NoWayBack Rule.readBeforeSend.first :=
    Program.noWayBack_of_closed (by decide +kernel) hclosed (by decide +kernel)
  have hsecond : Program.queriesItself.NoWayBack Rule.readBeforeSend.second :=
    Program.noWayBack_of_closed (by decide +kernel) hclosed (by decide +kernel)
  have hkeyFirst : (⟨"LS;", "query"⟩ : MethodRef).key = Rule.readBeforeSend.first.key := by decide
  have hkeySecond : (⟨"LT", "send"⟩ : MethodRef).key = Rule.readBeforeSend.second.key := by decide
  exact ⟨hkeyFirst, hkeySecond, hfirst, hsecond,
    Rule.assess_respell _ _ _ hkeyFirst hkeySecond hfirst hsecond⟩

/-- A program in which `query` and `fetch` call each other. What `run` calls first is the caller of
`fetch`; the caller of `query` itself it calls last. -/
def Program.queriesOnCycle : Program where
  permissions := ∅
  bodies := [
    ⟨⟨"LA;", "fetch"⟩, "()V", [⟨0, "invoke-static", [], some "LS;->query()V"⟩]⟩,
    ⟨⟨"LB;", "late"⟩, "(I)V", [⟨0, "invoke-static", [], some "LS;->query()V"⟩]⟩,
    ⟨⟨"LS;", "query"⟩, "()V", [⟨0, "invoke-static", [], some "LA;->fetch()V"⟩]⟩,
    ⟨⟨"LZ;", "early"⟩, "(I)V", [⟨0, "invoke-static", [], some "LA;->fetch()V"⟩]⟩,
    ⟨⟨"LMain;", "run"⟩, "()V", [⟨0, "const/4", [⟨"v0"⟩], some "1"⟩,
      ⟨1, "invoke-static", [⟨"v0"⟩], some "LZ;->early(I)V"⟩,
      ⟨2, "invoke-static", [⟨"v0"⟩], some "LT;->send(I)V"⟩,
      ⟨3, "invoke-static", [⟨"v0"⟩], some "LB;->late(I)V"⟩]⟩]

/-- On a cycle the spelling decides on the verdict: with the terminator all levels are passed, and
without it only three. The search that starts from the other spelling comes upon `query` while it
is at `fetch`, and so it finds `late` before `early`. -/
theorem Rule.assess_respell_queriesOnCycle :
    (⟨"LS;", "query"⟩ : MethodRef).key = Rule.readBeforeSend.first.key ∧
      ∃ report respelled, Rule.readBeforeSend.assess .queriesOnCycle {} = .ok report ∧
        (Rule.readBeforeSend.respell ⟨"LS;", "query"⟩ ⟨"LT;", "send"⟩).assess .queriesOnCycle {} =
          .ok respelled ∧
        report.confidence = 60 ∧ respelled.confidence = 100 ∧
        ¬ report.SameButSpelling respelled := by
  have hreport : Rule.readBeforeSend.evidence .queriesOnCycle {} = .ok [] := by
    decide +kernel
  have hrespelled :
      (Rule.readBeforeSend.respell ⟨"LS;", "query"⟩ ⟨"LT;", "send"⟩).evidence .queriesOnCycle {} =
        .ok [⟨⟨"LMain;", "run"⟩, ⟨"LZ;", "early"⟩, ⟨"LT;", "send"⟩, true⟩] := by
    decide +kernel
  have hlow : (Rule.readBeforeSend.reportOn .queriesOnCycle []).confidence = 60 := by
    decide +kernel
  have hhigh : ((Rule.readBeforeSend.respell ⟨"LS;", "query"⟩ ⟨"LT;", "send"⟩).reportOn
      .queriesOnCycle [⟨⟨"LMain;", "run"⟩, ⟨"LZ;", "early"⟩, ⟨"LT;", "send"⟩, true⟩]).confidence =
        100 := by
    decide +kernel
  refine ⟨by decide, _, _, by rw [assess_eq, hreport]; rfl, by rw [assess_eq, hrespelled]; rfl,
    hlow, hhigh, fun hsame => ?_⟩
  have hconfidence := hsame.confidence
  rw [hlow, hhigh] at hconfidence
  exact absurd hconfidence (by decide)

end DalvikRules
