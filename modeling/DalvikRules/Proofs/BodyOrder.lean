import DalvikRules.Proofs.CallOrdering

/-!
# The order of two calls inside a body

The order of two calls is decided on the call sites of all bodies of a common caller at once, and
these are matched by name alone. A call in one body may therefore be set against a call in another,
whose offsets are counted apart, and a call of one method against a call of its namesake. Here the
answer is compared with what each body says by itself, and with what a body says about the very
methods that are meant.
-/

namespace DalvikRules

namespace Body

variable {body : Body} {method : MethodRef} {offset : Nat}

/-- The offsets at which a body invokes a method, however its class is spelled. -/
def offsetsOf (body : Body) (method : MethodRef) : List Nat :=
  (body.callSites.filter (·.callee.key = method.key)).map CallSite.position

theorem mem_offsetsOf :
    offset ∈ body.offsetsOf method ↔
      ∃ site ∈ body.callSites, site.callee.key = method.key ∧ site.position = offset := by
  simp only [offsetsOf, List.mem_map, List.mem_filter, decide_eq_true_eq, and_assoc]

/-- A call of a method is a call of its name. -/
theorem mem_positionsOf_of_mem_offsetsOf (h : offset ∈ body.offsetsOf method) :
    offset ∈ positionsOf body.callSites method.name := by
  obtain ⟨site, hsite, hkey, hoffset⟩ := mem_offsetsOf.mp h
  exact mem_positionsOf.mpr ⟨site, hsite, congrArg MethodKey.name hkey, hoffset⟩

/-- A body has an offset for each method that it invokes. -/
theorem offsetsOf_ne_nil_iff :
    body.offsetsOf method ≠ [] ↔ ∃ target ∈ body.targets, target.method.key = method.key := by
  rw [← exists_callSite_iff]
  constructor
  · intro h
    obtain ⟨offset, hoffset⟩ := List.exists_mem_of_ne_nil _ h
    obtain ⟨site, hsite, hkey, -⟩ := mem_offsetsOf.mp hoffset
    exact ⟨site, hsite, hkey⟩
  · rintro ⟨site, hsite, hkey⟩
    exact List.ne_nil_of_mem (mem_offsetsOf.mpr ⟨site, hsite, hkey, rfl⟩)

end Body

/-- The calls of a name in several bodies are its calls in each of them. -/
theorem positionsOf_flatMap (bodies : List Body) (name : String) :
    positionsOf (bodies.flatMap Body.callSites) name =
      bodies.flatMap fun body => positionsOf body.callSites name := by
  simp only [positionsOf, List.filter_flatMap, List.map_flatMap]

namespace Program

variable {program : Program} {mode : SequenceMode} {common first second : MethodRef}

/-- The loose reading asks for a call of the first name and a later one of the second, each in any
body. -/
theorem callsInOrder_loose_iff :
    program.callsInOrder .loose common first second = true ↔
      ∃ body ∈ program.bodiesOf common, ∃ other ∈ program.bodiesOf common,
        ∃ offset ∈ positionsOf body.callSites first.name,
          ∃ later ∈ positionsOf other.callSites second.name, offset < later := by
  rw [callsInOrder_eq, DalvikRules.callsInOrder, precedes_min?_max?, positionsOf_flatMap,
    positionsOf_flatMap]
  simp only [List.mem_flatMap]
  constructor
  · rintro ⟨offset, ⟨body, hbody, hoffset⟩, later, ⟨other, hother, hlater⟩, hlt⟩
    exact ⟨body, hbody, other, hother, offset, hoffset, later, hlater, hlt⟩
  · rintro ⟨body, hbody, other, hother, offset, hoffset, later, hlater, hlt⟩
    exact ⟨offset, ⟨body, hbody, hoffset⟩, later, ⟨other, hother, hlater⟩, hlt⟩

/-- The strict reading asks for a call of either name, and sets every call of the first name against
every call of the second, whatever bodies the two stand in. -/
theorem callsInOrder_strict_iff :
    program.callsInOrder .strict common first second = true ↔
      (∃ body ∈ program.bodiesOf common, positionsOf body.callSites first.name ≠ []) ∧
      (∃ body ∈ program.bodiesOf common, positionsOf body.callSites second.name ≠ []) ∧
      ∀ body ∈ program.bodiesOf common, ∀ other ∈ program.bodiesOf common,
        ∀ offset ∈ positionsOf body.callSites first.name,
          ∀ later ∈ positionsOf other.callSites second.name, offset < later := by
  rw [callsInOrder_eq, DalvikRules.callsInOrder, precedes_max?_min?, positionsOf_flatMap,
    positionsOf_flatMap]
  simp only [List.mem_flatMap, ne_eq, List.flatMap_eq_nil_iff, not_forall, exists_prop]
  refine and_congr_right fun _ => and_congr_right fun _ => ?_
  constructor
  · intro h body hbody other hother offset hoffset later hlater
    exact h offset ⟨body, hbody, hoffset⟩ later ⟨other, hother, hlater⟩
  · rintro h offset ⟨body, hbody, hoffset⟩ later ⟨other, hother, hlater⟩
    exact h body hbody other hother offset hoffset later hlater

/-- In either reading a call of the first name in some body precedes a call of the second in some
body. -/
theorem exists_bodies_of_callsInOrder (h : program.callsInOrder mode common first second = true) :
    ∃ body ∈ program.bodiesOf common, ∃ other ∈ program.bodiesOf common,
      ∃ offset ∈ positionsOf body.callSites first.name,
        ∃ later ∈ positionsOf other.callSites second.name, offset < later := by
  rw [callsInOrder_eq] at h
  obtain ⟨offset, hoffset, later, hlater, hlt⟩ := exists_lt_of_callsInOrder h
  rw [positionsOf_flatMap] at hoffset hlater
  obtain ⟨body, hbody, hoffset⟩ := List.mem_flatMap.mp hoffset
  obtain ⟨other, hother, hlater⟩ := List.mem_flatMap.mp hlater
  exact ⟨body, hbody, other, hother, offset, hoffset, later, hlater, hlt⟩

/-! ### Calls in several bodies -/

/-- The calls of two names are not spread over several bodies of a method: the body that makes a
call of the first name is the body that makes a call of the second. -/
def CallsInOneBody (program : Program) (common first second : MethodRef) : Prop :=
  ∀ body ∈ program.bodiesOf common, ∀ other ∈ program.bodiesOf common,
    positionsOf body.callSites first.name ≠ [] → positionsOf other.callSites second.name ≠ [] →
      body = other

/-- If the calls stand in one body, then this body calls the two names in order by itself. -/
theorem CallsInOneBody.exists_body (h : program.CallsInOneBody common first second)
    (horder : program.callsInOrder mode common first second = true) :
    ∃ body ∈ program.bodiesOf common,
      DalvikRules.callsInOrder mode body.callSites first.name second.name = true := by
  obtain ⟨body, hbody, other, hother, offset, hoffset, later, hlater, hlt⟩ :=
    exists_bodies_of_callsInOrder horder
  have hfirst := List.ne_nil_of_mem hoffset
  have hsecond := List.ne_nil_of_mem hlater
  obtain rfl : body = other := h body hbody other hother hfirst hsecond
  refine ⟨body, hbody, ?_⟩
  cases mode with
  | loose => exact precedes_min?_max?.mpr ⟨offset, hoffset, later, hlater, hlt⟩
  | strict =>
    obtain ⟨-, -, hall⟩ := callsInOrder_strict_iff.mp horder
    exact precedes_max?_min?.mpr ⟨hfirst, hsecond, hall body hbody body hbody⟩

/-- If the calls stand in one body, then no other body has a say in their order. -/
theorem CallsInOneBody.callsInOrder_of_body {body : Body}
    (h : program.CallsInOneBody common first second) (hbody : body ∈ program.bodiesOf common)
    (horder : DalvikRules.callsInOrder mode body.callSites first.name second.name = true) :
    program.callsInOrder mode common first second = true := by
  cases mode with
  | loose =>
    obtain ⟨offset, hoffset, later, hlater, hlt⟩ := precedes_min?_max?.mp horder
    exact callsInOrder_loose_iff.mpr
      ⟨body, hbody, body, hbody, offset, hoffset, later, hlater, hlt⟩
  | strict =>
    obtain ⟨hfirst, hsecond, hall⟩ := precedes_max?_min?.mp horder
    refine callsInOrder_strict_iff.mpr ⟨⟨body, hbody, hfirst⟩, ⟨body, hbody, hsecond⟩, ?_⟩
    intro caller hcaller other hother offset hoffset later hlater
    -- Whatever two bodies make the two calls, both are the body in question.
    obtain rfl : caller = body :=
      h caller hcaller body hbody (List.ne_nil_of_mem hoffset) hsecond
    obtain rfl : caller = other :=
      h caller hcaller other hother hfirst (List.ne_nil_of_mem hlater)
    exact hall offset hoffset later hlater

/-- A common caller calls two names in order precisely if one of its bodies does so by itself, as
long as their calls are not spread over several bodies. In this body a call of the first name
stands at a smaller offset than a call of the second. -/
theorem callsInOrder_iff_in_one_body (h : program.CallsInOneBody common first second) :
    program.callsInOrder mode common first second = true ↔
      ∃ body ∈ program.bodiesOf common,
        DalvikRules.callsInOrder mode body.callSites first.name second.name = true ∧
          ∃ offset ∈ positionsOf body.callSites first.name,
            ∃ later ∈ positionsOf body.callSites second.name, offset < later := by
  constructor
  · intro horder
    obtain ⟨body, hbody, hown⟩ := h.exists_body horder
    exact ⟨body, hbody, hown, exists_lt_of_callsInOrder hown⟩
  · rintro ⟨body, hbody, hown, -⟩
    exact h.callsInOrder_of_body hbody hown

/-- A program in which one overload of `run` hands over to the other, which reads and then sends. -/
def runsOverload : Program where
  permissions := ∅
  bodies := [
    ⟨⟨"LA;", "run"⟩, "(I)V", [⟨8, "invoke-static", [], some "LA;->run()V"⟩]⟩,
    ⟨⟨"LA;", "run"⟩, "()V", [⟨0, "invoke-virtual", [], some "LS;->query()V"⟩,
      ⟨2, "invoke-virtual", [], some "LT;->send()V"⟩]⟩]

theorem callsInOrder_iff_in_one_body_runsOverload :
    runsOverload.CallsInOneBody ⟨"LA;", "run"⟩ ⟨"LS;", "query"⟩ ⟨"LT;", "send"⟩ ∧
      ∃ body ∈ runsOverload.bodiesOf ⟨"LA;", "run"⟩,
        DalvikRules.callsInOrder .strict body.callSites "query" "send" = true ∧
          ∃ offset ∈ positionsOf body.callSites "query",
            ∃ later ∈ positionsOf body.callSites "send", offset < later := by
  have hone : runsOverload.CallsInOneBody ⟨"LA;", "run"⟩ ⟨"LS;", "query"⟩ ⟨"LT;", "send"⟩ := by
    unfold CallsInOneBody
    decide +kernel
  have horder : runsOverload.callsInOrder .strict ⟨"LA;", "run"⟩ ⟨"LS;", "query"⟩
      ⟨"LT;", "send"⟩ = true := by
    decide +kernel
  exact ⟨hone, (callsInOrder_iff_in_one_body hone).mp horder⟩

/-- A program in which one overload of `run` reads and the other one sends. -/
def runsApart : Program where
  permissions := ∅
  bodies := [
    ⟨⟨"LA;", "run"⟩, "()V", [⟨0, "invoke-virtual", [], some "LS;->query()V"⟩]⟩,
    ⟨⟨"LA;", "run"⟩, "(I)V", [⟨2, "invoke-virtual", [], some "LT;->send()V"⟩]⟩]

/-- The offsets of two bodies are compared as if they were offsets of one: no body of `run` makes
both calls, and still they are taken to be in order. -/
theorem callsInOrder_runsApart :
    runsApart.callsInOrder .loose ⟨"LA;", "run"⟩ ⟨"LS;", "query"⟩ ⟨"LT;", "send"⟩ = true ∧
      runsApart.callsInOrder .strict ⟨"LA;", "run"⟩ ⟨"LS;", "query"⟩ ⟨"LT;", "send"⟩ = true ∧
      ¬ ∃ body ∈ runsApart.bodiesOf ⟨"LA;", "run"⟩, ∃ offset ∈ positionsOf body.callSites "query",
        ∃ later ∈ positionsOf body.callSites "send", offset < later := by
  decide +kernel

/-! ### Calls of namesakes -/

/-- One call of the second method that does not stand after a call of the first is enough for the
strict reading to deny the order. -/
theorem callsInOrder_strict_eq_false {body other : Body} {offset earlier : Nat}
    (hbody : body ∈ program.bodiesOf common) (hother : other ∈ program.bodiesOf common)
    (hfirst : offset ∈ body.offsetsOf first) (hsecond : earlier ∈ other.offsetsOf second)
    (h : earlier ≤ offset) : program.callsInOrder .strict common first second = false := by
  rw [Bool.eq_false_iff]
  intro horder
  obtain ⟨-, -, hall⟩ := callsInOrder_strict_iff.mp horder
  have hlt := hall body hbody other hother offset (Body.mem_positionsOf_of_mem_offsetsOf hfirst)
    earlier (Body.mem_positionsOf_of_mem_offsetsOf hsecond)
  omega

/-- With one body the loose reading asks for a call site of the first name before one of the
second. -/
theorem callsInOrder_loose_iff_of_body {body : Body} (hbody : program.bodiesOf common = [body]) :
    program.callsInOrder .loose common first second = true ↔
      ∃ site ∈ body.callSites, ∃ next ∈ body.callSites,
        site.callee.name = first.name ∧ next.callee.name = second.name ∧
          site.position < next.position := by
  rw [callsInOrder_eq, hbody, List.flatMap_singleton, callsInOrder_loose_iff_sites]

/-- In the wrong order two methods do not pass. If the only body of a common caller invokes both,
and the second method always before the first, then the strict reading denies the order. The loose
one grants it only for the sake of a namesake: if a call of the first name precedes a call of the
second, and the two are not calls of the very methods that are meant. -/
theorem callsInOrder_of_wrong_order {body : Body} (hbody : program.bodiesOf common = [body])
    (hfirst : body.offsetsOf first ≠ []) (hsecond : body.offsetsOf second ≠ [])
    (hwrong : ∀ offset ∈ body.offsetsOf first, ∀ earlier ∈ body.offsetsOf second,
      earlier < offset) :
    program.callsInOrder .strict common first second = false ∧
      (program.callsInOrder .loose common first second = true ↔
        ∃ site ∈ body.callSites, ∃ next ∈ body.callSites,
          site.callee.name = first.name ∧ next.callee.name = second.name ∧
            site.position < next.position ∧
            ¬ (site.callee.key = first.key ∧ next.callee.key = second.key)) := by
  have hmem : body ∈ program.bodiesOf common := by
    rw [hbody]
    exact List.mem_singleton_self body
  constructor
  · obtain ⟨offset, hoffset⟩ := List.exists_mem_of_ne_nil _ hfirst
    obtain ⟨earlier, hearlier⟩ := List.exists_mem_of_ne_nil _ hsecond
    have hlt := hwrong offset hoffset earlier hearlier
    exact callsInOrder_strict_eq_false hmem hmem hoffset hearlier (by omega)
  · rw [callsInOrder_loose_iff_of_body hbody]
    constructor
    · rintro ⟨site, hsite, next, hnext, hname, hname', hlt⟩
      refine ⟨site, hsite, next, hnext, hname, hname', hlt, ?_⟩
      rintro ⟨hkey, hkey'⟩
      have hgt := hwrong _ (Body.mem_offsetsOf.mpr ⟨site, hsite, hkey, rfl⟩) _
        (Body.mem_offsetsOf.mpr ⟨next, hnext, hkey', rfl⟩)
      omega
    · rintro ⟨site, hsite, next, hnext, hname, hname', hlt, -⟩
      exact ⟨site, hsite, next, hnext, hname, hname', hlt⟩

/-- A program with one body. -/
def ofBody (body : Body) : Program where
  permissions := ∅
  bodies := [body]

end Program

/-- A body of `run` that sends before it asks a log, and then reads. -/
def Body.sendsLogsReads : Body :=
  ⟨⟨"LA;", "run"⟩, "()V", [⟨0, "invoke-virtual", [], some "LT;->send()V"⟩,
    ⟨2, "invoke-virtual", [], some "LLog;->query()V"⟩,
    ⟨4, "invoke-virtual", [], some "LS;->query()V"⟩]⟩

theorem Program.callsInOrder_of_wrong_order_sendsLogsReads :
    (ofBody .sendsLogsReads).bodiesOf ⟨"LA;", "run"⟩ = [.sendsLogsReads] ∧
      Body.sendsLogsReads.offsetsOf ⟨"LS", "query"⟩ ≠ [] ∧
      Body.sendsLogsReads.offsetsOf ⟨"LT;", "send"⟩ ≠ [] ∧
      (∀ offset ∈ Body.sendsLogsReads.offsetsOf ⟨"LS", "query"⟩,
        ∀ earlier ∈ Body.sendsLogsReads.offsetsOf ⟨"LT;", "send"⟩, earlier < offset) ∧
      (ofBody .sendsLogsReads).callsInOrder .strict ⟨"LA;", "run"⟩ ⟨"LS", "query"⟩
        ⟨"LT;", "send"⟩ = false ∧
      (ofBody .sendsLogsReads).callsInOrder .loose ⟨"LA;", "run"⟩ ⟨"LS", "query"⟩
        ⟨"LT;", "send"⟩ = false := by
  have hbody : (ofBody .sendsLogsReads).bodiesOf ⟨"LA;", "run"⟩ = [.sendsLogsReads] := by
    decide +kernel
  have hfirst : Body.sendsLogsReads.offsetsOf ⟨"LS", "query"⟩ ≠ [] := by
    decide +kernel
  have hsecond : Body.sendsLogsReads.offsetsOf ⟨"LT;", "send"⟩ ≠ [] := by
    decide +kernel
  have hwrong : ∀ offset ∈ Body.sendsLogsReads.offsetsOf ⟨"LS", "query"⟩,
      ∀ earlier ∈ Body.sendsLogsReads.offsetsOf ⟨"LT;", "send"⟩, earlier < offset := by
    decide +kernel
  obtain ⟨hstrict, hloose⟩ := callsInOrder_of_wrong_order hbody hfirst hsecond hwrong
  refine ⟨hbody, hfirst, hsecond, hwrong, hstrict, Bool.eq_false_iff.mpr fun horder => ?_⟩
  -- The log is asked between the two calls, so it cannot stand in for the first of them.
  exact absurd (hloose.mp horder) (by decide +kernel)

/-- A body of `run` that asks a log before it sends, and then reads. -/
def Body.logsSendsReads : Body :=
  ⟨⟨"LA;", "run"⟩, "()V", [⟨0, "invoke-virtual", [], some "LLog;->query()V"⟩,
    ⟨2, "invoke-virtual", [], some "LT;->send()V"⟩,
    ⟨4, "invoke-virtual", [], some "LS;->query()V"⟩]⟩

/-- The question put to the log is taken for the first call, although the body sends before it
reads. -/
theorem Program.callsInOrder_logsSendsReads :
    (ofBody .logsSendsReads).bodiesOf ⟨"LA;", "run"⟩ = [.logsSendsReads] ∧
      (⟨"LS;", "query"⟩ : MethodRef).key ≠ (⟨"LT;", "send"⟩ : MethodRef).key ∧
      Body.logsSendsReads.offsetsOf ⟨"LS;", "query"⟩ = [4] ∧
      Body.logsSendsReads.offsetsOf ⟨"LT;", "send"⟩ = [2] ∧
      (ofBody .logsSendsReads).callsInOrder .loose ⟨"LA;", "run"⟩ ⟨"LS;", "query"⟩
        ⟨"LT;", "send"⟩ = true := by
  decide +kernel

end DalvikRules
