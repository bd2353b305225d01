import DalvikRules.CallOrder
import DalvikRules.Proofs.ProgramQueries

/-!
# What the order of two calls says

The comparison of a first and a last offset is stated as a condition on all call sites. It shows
that neither the order in which call sites are listed nor their number is of any importance, and
that the answer can be read off a table of the call sites, sorted by their offsets. Of the methods
known under the key of a common caller only the declared ones have call sites at all.
-/

namespace DalvikRules

theorem mem_positionsOf {sites : List CallSite} {name : String} {position : Nat} :
    position ∈ positionsOf sites name ↔
      ∃ site ∈ sites, site.callee.name = name ∧ site.position = position := by
  simp only [positionsOf, List.mem_map, List.mem_filter, decide_eq_true_eq, and_assoc]

/-- The least of some offsets precedes the greatest of others if any of them precedes another. -/
theorem precedes_min?_max? {firsts seconds : List Nat} :
    precedes firsts.min? seconds.max? = true ↔
      ∃ first ∈ firsts, ∃ second ∈ seconds, first < second := by
  cases hmin : firsts.min? with
  | none =>
    rw [List.min?_eq_none_iff] at hmin
    simp [hmin, precedes]
  | some least =>
    obtain ⟨hleast, hle⟩ := List.min?_eq_some_iff.mp hmin
    cases hmax : seconds.max? with
    | none =>
      rw [List.max?_eq_none_iff] at hmax
      simp [hmax, precedes]
    | some greatest =>
      obtain ⟨hgreatest, hge⟩ := List.max?_eq_some_iff.mp hmax
      rw [precedes, decide_eq_true_eq]
      constructor
      · intro h
        exact ⟨least, hleast, greatest, hgreatest, h⟩
      · rintro ⟨first, hfirst, second, hsecond, h⟩
        have := hle first hfirst
        have := hge second hsecond
        omega

/-- The greatest of some offsets precedes the least of others if each of them precedes every
other, and there is one of either kind. -/
theorem precedes_max?_min? {firsts seconds : List Nat} :
    precedes firsts.max? seconds.min? = true ↔
      firsts ≠ [] ∧ seconds ≠ [] ∧ ∀ first ∈ firsts, ∀ second ∈ seconds, first < second := by
  cases hmax : firsts.max? with
  | none =>
    rw [List.max?_eq_none_iff] at hmax
    simp [hmax, precedes]
  | some greatest =>
    obtain ⟨hgreatest, hge⟩ := List.max?_eq_some_iff.mp hmax
    cases hmin : seconds.min? with
    | none =>
      rw [List.min?_eq_none_iff] at hmin
      simp [hmin, precedes]
    | some least =>
      obtain ⟨hleast, hle⟩ := List.min?_eq_some_iff.mp hmin
      rw [precedes, decide_eq_true_eq]
      constructor
      · intro h
        refine ⟨List.ne_nil_of_mem hgreatest, List.ne_nil_of_mem hleast, ?_⟩
        intro first hfirst second hsecond
        have := hge first hfirst
        have := hle second hsecond
        omega
      · exact fun ⟨_, _, h⟩ => h greatest hgreatest least hleast

/-- A name has an offset if some call site calls it. -/
theorem positionsOf_ne_nil_iff {sites : List CallSite} {name : String} :
    positionsOf sites name ≠ [] ↔ ∃ site ∈ sites, site.callee.name = name := by
  constructor
  · intro h
    obtain ⟨position, hposition⟩ := List.exists_mem_of_ne_nil _ h
    obtain ⟨site, hsite, hname, -⟩ := mem_positionsOf.mp hposition
    exact ⟨site, hsite, hname⟩
  · rintro ⟨site, hsite, hname⟩
    exact List.ne_nil_of_mem (mem_positionsOf.mpr ⟨site, hsite, hname, rfl⟩)

/-- The loose reading asks for one call of the first name before one call of the second. -/
theorem callsInOrder_loose_iff_sites {sites : List CallSite} {first second : String} :
    callsInOrder .loose sites first second = true ↔
      ∃ site ∈ sites, ∃ next ∈ sites, site.callee.name = first ∧ next.callee.name = second ∧
        site.position < next.position := by
  rw [callsInOrder, precedes_min?_max?]
  constructor
  · rintro ⟨_, hposition, _, hlater, hlt⟩
    obtain ⟨site, hsite, hname, rfl⟩ := mem_positionsOf.mp hposition
    obtain ⟨next, hnext, hname', rfl⟩ := mem_positionsOf.mp hlater
    exact ⟨site, hsite, next, hnext, hname, hname', hlt⟩
  · rintro ⟨site, hsite, next, hnext, hname, hname', hlt⟩
    exact ⟨_, mem_positionsOf.mpr ⟨site, hsite, hname, rfl⟩, _,
      mem_positionsOf.mpr ⟨next, hnext, hname', rfl⟩, hlt⟩

/-- The strict reading asks for a call of either name, and for every call of the first name before
every call of the second. -/
theorem callsInOrder_strict_iff_sites {sites : List CallSite} {first second : String} :
    callsInOrder .strict sites first second = true ↔
      (∃ site ∈ sites, site.callee.name = first) ∧ (∃ site ∈ sites, site.callee.name = second) ∧
        ∀ site ∈ sites, ∀ next ∈ sites, site.callee.name = first → next.callee.name = second →
          site.position < next.position := by
  rw [callsInOrder, precedes_max?_min?, positionsOf_ne_nil_iff, positionsOf_ne_nil_iff]
  refine and_congr_right fun _ => and_congr_right fun _ => ?_
  constructor
  · intro h site hsite next hnext hname hname'
    exact h _ (mem_positionsOf.mpr ⟨site, hsite, hname, rfl⟩) _
      (mem_positionsOf.mpr ⟨next, hnext, hname', rfl⟩)
  · intro h _ hposition _ hlater
    obtain ⟨site, hsite, hname, rfl⟩ := mem_positionsOf.mp hposition
    obtain ⟨next, hnext, hname', rfl⟩ := mem_positionsOf.mp hlater
    exact h site hsite next hnext hname hname'

/-- Only the set of call sites of the two names matters for the order of two calls. -/
theorem callsInOrder_congr {mode : SequenceMode} {sites others : List CallSite}
    {first second : String}
    (h : ∀ site, site.callee.name = first ∨ site.callee.name = second →
      (site ∈ sites ↔ site ∈ others)) :
    callsInOrder mode sites first second = callsInOrder mode others first second := by
  have hpositions (name : String) (hname : name = first ∨ name = second) (position : Nat) :
      position ∈ positionsOf sites name ↔ position ∈ positionsOf others name := by
    rw [mem_positionsOf, mem_positionsOf]
    refine exists_congr fun site => and_congr_left fun ⟨hsite, _⟩ => h site ?_
    rwa [hsite]
  have hfirst := hpositions first (.inl rfl)
  have hsecond := hpositions second (.inr rfl)
  rw [Bool.eq_iff_iff]
  cases mode with
  | loose => simp only [callsInOrder, precedes_min?_max?, hfirst, hsecond]
  | strict =>
    simp only [callsInOrder, precedes_max?_min?, ne_eq, List.eq_nil_iff_forall_not_mem, hfirst,
      hsecond]

/-- In either reading some call of the first name precedes some call of the second. -/
theorem exists_lt_of_callsInOrder {mode : SequenceMode} {sites : List CallSite}
    {first second : String} (h : callsInOrder mode sites first second = true) :
    ∃ position ∈ positionsOf sites first, ∃ later ∈ positionsOf sites second, position < later := by
  cases mode with
  | loose => exact precedes_min?_max?.mp h
  | strict =>
    obtain ⟨hfirst, hsecond, hlt⟩ := precedes_max?_min?.mp h
    obtain ⟨position, hposition⟩ := List.exists_mem_of_ne_nil _ hfirst
    obtain ⟨later, hlater⟩ := List.exists_mem_of_ne_nil _ hsecond
    exact ⟨position, hposition, later, hlater, hlt position hposition later hlater⟩

/-! ### Reading the order off a table -/

/-- In ascending order the first element is the least one. -/
private theorem head?_eq_min? {positions : List Nat} (h : positions.Pairwise (· ≤ ·)) :
    positions.head? = positions.min? := by
  cases positions with
  | nil => rfl
  | cons first rest =>
    obtain ⟨hfirst, -⟩ := List.pairwise_cons.mp h
    have hleast : ∀ position ∈ first :: rest, first ≤ position :=
      List.forall_mem_cons.mpr ⟨Nat.le_refl _, hfirst⟩
    exact (List.min?_eq_some_iff.mpr ⟨List.mem_cons_self, hleast⟩).symm

/-- In ascending order the last element is the greatest one. -/
private theorem getLast?_eq_max? {positions : List Nat} (h : positions.Pairwise (· ≤ ·)) :
    positions.getLast? = positions.max? := by
  cases hlast : positions.getLast? with
  | none =>
    rw [List.getLast?_eq_none_iff.mp hlast]
    rfl
  | some last =>
    obtain ⟨front, rfl⟩ := List.getLast?_eq_some_iff.mp hlast
    obtain ⟨-, -, hfront⟩ := List.pairwise_append.mp h
    have hgreatest : ∀ position ∈ front ++ [last], position ≤ last :=
      List.forall_mem_append.mpr ⟨fun position hposition =>
        hfront position hposition last (List.mem_singleton_self last),
        List.forall_mem_singleton.mpr (Nat.le_refl last)⟩
    exact (List.max?_eq_some_iff.mpr
      ⟨List.mem_append_right _ (List.mem_singleton_self last), hgreatest⟩).symm

private theorem eq_of_length_lt_two {α : Type} {l : List α} {a b : α} (h : l.length < 2)
    (ha : a ∈ l) (hb : b ∈ l) : a = b := by
  cases l with
  | nil => simp at ha
  | cons first rest =>
    have hrest : rest = [] := by
      rw [← List.length_eq_zero_iff]
      rw [List.length_cons] at h
      omega
    subst hrest
    rw [List.mem_singleton.mp ha, List.mem_singleton.mp hb]

/-- The call sites of two names in ascending order of their offsets. Sites at the same offset stay
in the order in which they were listed. -/
def callTable (sites : List CallSite) (first second : String) : List CallSite :=
  (sites.filter fun site => site.callee.name = first ∨ site.callee.name = second).mergeSort
    fun site next => site.position ≤ next.position

theorem pairwise_positionsOf_callTable (sites : List CallSite) (first second name : String) :
    (positionsOf (callTable sites first second) name).Pairwise (· ≤ ·) := by
  have hsorted : (callTable sites first second).Pairwise fun site next =>
      decide (site.position ≤ next.position) = true :=
    List.pairwise_mergeSort (by simpa using fun _ _ _ => Nat.le_trans)
      (by simpa using fun _ _ => Nat.le_total _ _) _
  rw [positionsOf, List.pairwise_map]
  exact (hsorted.filter _).imp of_decide_eq_true

/-- The order of two calls as a table shows it: the first or the last entry of either name
decides. -/
def tableOrder (mode : SequenceMode) (table : List CallSite) (first second : String) : Bool :=
  match mode with
  | .loose => precedes (positionsOf table first).head? (positionsOf table second).getLast?
  | .strict => precedes (positionsOf table first).getLast? (positionsOf table second).head?

/-- The order of two calls can be read off their table. -/
theorem callsInOrder_eq_tableOrder (mode : SequenceMode) (sites : List CallSite)
    (first second : String) :
    callsInOrder mode sites first second =
      tableOrder mode (callTable sites first second) first second := by
  have hsame : callsInOrder mode sites first second =
      callsInOrder mode (callTable sites first second) first second := by
    refine callsInOrder_congr fun site hname => ?_
    simp [callTable, List.mem_mergeSort, hname]
  have hsorted := pairwise_positionsOf_callTable sites first second
  rw [hsame]
  cases mode with
  | loose =>
    rw [tableOrder, head?_eq_min? (hsorted first), getLast?_eq_max? (hsorted second), callsInOrder]
  | strict =>
    rw [tableOrder, getLast?_eq_max? (hsorted first), head?_eq_min? (hsorted second), callsInOrder]

/-- A table with fewer than two entries shows no order. -/
theorem tableOrder_of_few {mode : SequenceMode} {sites : List CallSite} {first second : String}
    (hfew : (callTable sites first second).length < 2) :
    tableOrder mode (callTable sites first second) first second = false := by
  rw [← callsInOrder_eq_tableOrder, Bool.eq_false_iff]
  intro horder
  obtain ⟨position, hposition, later, hlater, hlt⟩ := exists_lt_of_callsInOrder horder
  obtain ⟨site, hsite, hname, rfl⟩ := mem_positionsOf.mp hposition
  obtain ⟨next, hnext, hname', rfl⟩ := mem_positionsOf.mp hlater
  have hmem {site : CallSite} (hsite : site ∈ sites)
      (hname : site.callee.name = first ∨ site.callee.name = second) :
      site ∈ callTable sites first second := by
    simpa [callTable, List.mem_mergeSort] using ⟨hsite, hname⟩
  -- A call that precedes another is not that other one, so there are two entries.
  rw [eq_of_length_lt_two hfew (hmem hsite (.inl hname)) (hmem hnext (.inr hname'))] at hlt
  exact Nat.lt_irrefl _ hlt

/-- The call sites of a common caller are those of the bodies declared under its key; a method that
is only invoked has none. -/
theorem Program.callsInOrder_eq (program : Program) (mode : SequenceMode)
    (common first second : MethodRef) :
    program.callsInOrder mode common first second =
      DalvikRules.callsInOrder mode ((program.bodiesOf common).flatMap Body.callSites)
        first.name second.name := by
  have hempty : DalvikRules.callsInOrder mode [] first.name second.name = false := by
    cases mode <;> rfl
  rw [callsInOrder, find?, bodiesOf, Entry.methods]
  cases (program.index.entry common.key).bodies with
  | nil =>
    cases (program.index.entry common.key).firstCall? with
    | none => exact hempty.symm
    | some target => rfl
  | cons body rest =>
    have hsites : ((body :: rest).map Method.declared).flatMap Method.callSites =
        (body :: rest).flatMap Body.callSites := by
      rw [List.flatMap_map]
      rfl
    exact congrArg (DalvikRules.callsInOrder mode · first.name second.name) hsites

end DalvikRules
