import DalvikRules.CallGraph.Predecessors
import DalvikRules.Proofs.CallerChain

/-!
# What the search for predecessors visits

The search climbs from a method through callers and stops at every method that the top calls
directly. It visits exactly the methods at the end of an open chain: no method of the chain was
visited before, and the top calls none of them directly but possibly the last. The visited set is
shared by all branches, so a chain that is cut by a branch visited earlier has to be continued from
that method of the branch that it leaves last; `Climb.cut` is the one step of this argument.
-/

namespace DalvikRules

namespace Program

variable {program : Program} {top : MethodRef}

/-- `target` is at the end of an open chain of callers that starts at a method. -/
inductive Climb (program : Program) (top : MethodRef) (visited : MethodSet) :
    MethodRef → MethodRef → Prop
  | here {method : MethodRef} (hfresh : method ∉ visited) : Climb program top visited method method
  | up {method caller target : MethodRef} (hfresh : method ∉ visited)
      (hopen : ¬ program.CalledBy method top) (hcall : program.CalledBy method caller)
      (hchain : Climb program top visited caller target) : Climb program top visited method target

/-- A method is at the end of an open chain from some method of a stack. -/
def Reaches (program : Program) (top : MethodRef) (visited : MethodSet) (stack : List MethodRef)
    (target : MethodRef) : Prop :=
  ∃ base ∈ stack, program.Climb top visited base target

namespace Climb

variable {visited : MethodSet} {base target : MethodRef}

theorem base_fresh (h : program.Climb top visited base target) : base ∉ visited := by
  cases h with
  | here hfresh => exact hfresh
  | up hfresh => exact hfresh

/-- A chain does not go on from a method that the top calls. -/
theorem eq_of_called (h : program.Climb top visited base target)
    (hcalled : program.CalledBy base top) : target = base := by
  cases h with
  | here => rfl
  | up _ hopen => exact absurd hcalled hopen

/-- A chain that avoids more methods is a chain all the more. -/
theorem of_insert {method : MethodRef} (h : program.Climb top (visited.insert method) base target) :
    program.Climb top visited base target := by
  have hfresh {other : MethodRef} (h : other ∉ visited.insert method) : other ∉ visited :=
    fun hmem => h (MethodSet.mem_insert.mpr (.inr hmem))
  induction h with
  | here hother => exact .here (hfresh hother)
  | up hother hopen hcall _ ih => exact .up (hfresh hother) hopen hcall ih

/-- A chain either avoids a method, or it ends there, or what follows the last visit of the method
is a chain of its own. -/
theorem cut (h : program.Climb top visited base target) (method : MethodRef) :
    target = method ∨ program.Climb top (visited.insert method) base target ∨
      ¬ program.CalledBy method top ∧ ∃ caller, program.CalledBy method caller ∧
        program.Climb top (visited.insert method) caller target := by
  have hfresh {other : MethodRef} (hother : other ∉ visited) (hne : other ≠ method) :
      other ∉ visited.insert method :=
    fun hmem => (MethodSet.mem_insert.mp hmem).elim hne hother
  induction h with
  | @here start hstart =>
    by_cases hne : start = method
    · exact .inl hne
    · exact .inr (.inl (.here (hfresh hstart hne)))
  | @up start caller target hstart hopen hcall _ ih =>
    rcases ih with hend | hchain | hrest
    · exact .inl hend
    · by_cases hne : start = method
      · subst hne
        exact .inr (.inr ⟨hopen, caller, hcall, hchain⟩)
      · exact .inr (.inl (.up (hfresh hstart hne) hopen hcall hchain))
    · exact .inr (.inr hrest)

end Climb

variable {method target : MethodRef} {rest : List MethodRef} {visited : MethodSet}

theorem reaches_nil : ¬ program.Reaches top visited [] target := by
  simp [Reaches]

/-- Nothing is reached from a method that was visited before. -/
theorem reaches_cons_of_mem (h : method ∈ visited) :
    program.Reaches top visited (method :: rest) target ↔
      program.Reaches top visited rest target := by
  constructor
  · rintro ⟨base, hbase, hclimb⟩
    rcases List.mem_cons.mp hbase with rfl | hbase
    · exact absurd h hclimb.base_fresh
    · exact ⟨base, hbase, hclimb⟩
  · rintro ⟨base, hbase, hclimb⟩
    exact ⟨base, List.mem_cons_of_mem _ hbase, hclimb⟩

/-- What is reached from a method that the top calls: the method itself. -/
theorem reaches_cons_of_called (hfresh : method ∉ visited)
    (hcalled : program.CalledBy method top) :
    program.Reaches top visited (method :: rest) target ↔
      target = method ∨ program.Reaches top (visited.insert method) rest target := by
  constructor
  · rintro ⟨base, hbase, hclimb⟩
    rcases hclimb.cut method with hend | hclimb' | ⟨hopen, -⟩
    · exact .inl hend
    · rcases List.mem_cons.mp hbase with rfl | hbase
      · exact .inl (hclimb.eq_of_called hcalled)
      · exact .inr ⟨base, hbase, hclimb'⟩
    · exact absurd hcalled hopen
  · rintro (rfl | ⟨base, hbase, hclimb⟩)
    · exact ⟨target, List.mem_cons_self, .here hfresh⟩
    · exact ⟨base, List.mem_cons_of_mem _ hbase, hclimb.of_insert⟩

/-- What is reached from any other method: the method itself and what its callers reach. -/
theorem reaches_cons_of_not_called (hfresh : method ∉ visited)
    (hopen : ¬ program.CalledBy method top) :
    program.Reaches top visited (method :: rest) target ↔
      target = method ∨ program.Reaches top (visited.insert method)
        ((program.callers method).toList ++ rest) target := by
  have hcallers {caller : MethodRef} :
      caller ∈ (program.callers method).toList ↔ program.CalledBy method caller := by
    rw [Std.ExtTreeSet.mem_toList, calledBy_iff]
  constructor
  · rintro ⟨base, hbase, hclimb⟩
    rcases hclimb.cut method with hend | hclimb' | ⟨-, caller, hcall, hclimb'⟩
    · exact .inl hend
    · rcases List.mem_cons.mp hbase with rfl | hbase
      · exact absurd (MethodSet.mem_insert.mpr (.inl rfl)) hclimb'.base_fresh
      · exact .inr ⟨base, List.mem_append_right _ hbase, hclimb'⟩
    · exact .inr ⟨caller, List.mem_append_left _ (hcallers.mpr hcall), hclimb'⟩
  · rintro (rfl | ⟨base, hbase, hclimb⟩)
    · exact ⟨target, List.mem_cons_self, .here hfresh⟩
    · rcases List.mem_append.mp hbase with hbase | hbase
      · exact ⟨method, List.mem_cons_self,
          .up hfresh hopen (hcallers.mp hbase) hclimb.of_insert⟩
      · exact ⟨base, List.mem_cons_of_mem _ hbase, hclimb.of_insert⟩

/-- What a search has visited and found in the end, in terms of where it started: exactly what it
reaches is visited, and of that the methods which the top calls are found, each once. -/
structure Explores (program : Program) (top : MethodRef) (stack : List MethodRef)
    (start finish : Search) : Prop where
  visited : ∀ method, method ∈ finish.visited ↔
    method ∈ start.visited ∨ program.Reaches top start.visited stack method
  found : ∃ new, finish.found = start.found ++ new ∧ new.Nodup ∧
    ∀ method, method ∈ new ↔ program.Reaches top start.visited stack method ∧
      program.CalledBy method top ∧ method ∉ start.found

/-- A search that visits one method, and keeps it if the top calls it and it is not kept already,
has explored its stack once the search that goes on from there has explored the rest. -/
private theorem Explores.of_visit {stack rest : List MethodRef} {start next finish : Search}
    {method : MethodRef}
    (hreaches : ∀ other, program.Reaches top start.visited stack other ↔
      other = method ∨ program.Reaches top (start.visited.insert method) rest other)
    (hvisited : next.visited = start.visited.insert method)
    (hkept :
      (program.CalledBy method top ∧ method ∉ start.found) ∧
        next.found = start.found ++ [method] ∨
      ¬ (program.CalledBy method top ∧ method ∉ start.found) ∧ next.found = start.found)
    (h : program.Explores top rest next finish) : program.Explores top stack start finish := by
  refine ⟨fun other => ?_, ?_⟩
  · rw [h.visited, hreaches, hvisited, MethodSet.mem_insert, or_assoc, or_left_comm]
  · obtain ⟨new, hfound, hnodup, hnew⟩ := h.found
    rw [hvisited] at hnew
    rcases hkept with ⟨hkeep, hlonger⟩ | ⟨hkeep, hsame⟩
    · rw [hlonger] at hfound hnew
      refine ⟨method :: new, by rw [hfound, List.append_assoc, List.singleton_append], ?_,
        fun other => ?_⟩
      · refine List.nodup_cons.mpr ⟨fun hmem => ?_, hnodup⟩
        exact ((hnew method).mp hmem).2.2 (by simp)
      -- The rest may reach the method again, but it is kept by then.
      · rw [List.mem_cons, hnew, hreaches, List.mem_append, List.mem_singleton]
        by_cases heq : other = method
        · subst heq
          exact iff_of_true (.inl rfl) ⟨.inl rfl, hkeep⟩
        · simp only [heq, false_or, or_false]
    · rw [hsame] at hfound hnew
      refine ⟨new, hfound, hnodup, fun other => ?_⟩
      rw [hnew, hreaches]
      refine ⟨fun hreach => ⟨.inr hreach.1, hreach.2⟩, fun ⟨hreach, hrest⟩ => ⟨?_, hrest⟩⟩
      exact hreach.resolve_left fun heq => hkeep (heq ▸ hrest)

/-- The search explores its stack, whatever it has found and visited before. -/
theorem explores_searchFrom (program : Program) (top : MethodRef) (stack : List MethodRef)
    (search : Search) :
    program.Explores top stack search (program.searchFrom top stack search) := by
  induction stack, search using searchFrom.induct program top with
  | case1 search =>
    rw [searchFrom]
    exact ⟨by simp [reaches_nil], [], by simp [reaches_nil]⟩
  | case2 method rest search hmem ih =>
    rw [searchFrom, if_pos hmem]
    refine ⟨?_, ?_⟩
    · simpa only [reaches_cons_of_mem hmem] using ih.visited
    · simpa only [reaches_cons_of_mem hmem] using ih.found
  | case3 method rest search hfresh hcalled ih =>
    rw [searchFrom, if_neg hfresh, if_pos hcalled]
    have hcalled := calledBy_iff.mpr hcalled
    refine ih.of_visit (fun _ => reaches_cons_of_called hfresh hcalled) rfl ?_
    by_cases hold : method ∈ search.found
    · exact .inr ⟨fun hkeep => hkeep.2 hold, if_pos hold⟩
    · exact .inl ⟨⟨hcalled, hold⟩, if_neg hold⟩
  | case4 method rest search hfresh hopen ih =>
    rw [searchFrom, if_neg hfresh, if_neg hopen]
    have hopen : ¬ program.CalledBy method top := fun h => hopen (calledBy_iff.mp h)
    refine ih.of_visit (fun _ => reaches_cons_of_not_called hfresh hopen) rfl ?_
    exact .inr ⟨fun hkeep => hopen hkeep.1, rfl⟩

section Rounds

variable {method : MethodRef} {rest : List MethodRef} {search : Search}

theorem searchFrom_nil (search : Search) : program.searchFrom top [] search = search := by
  rw [searchFrom]

theorem searchFrom_cons_of_mem (h : method ∈ search.visited) :
    program.searchFrom top (method :: rest) search = program.searchFrom top rest search := by
  rw [searchFrom, if_pos h]

theorem searchFrom_cons_of_called (hfresh : method ∉ search.visited)
    (hcalled : top ∈ program.callers method) :
    program.searchFrom top (method :: rest) search =
      program.searchFrom top rest (search.collect method) := by
  rw [searchFrom, if_neg hfresh, if_pos hcalled]

theorem searchFrom_cons_of_not_called (hfresh : method ∉ search.visited)
    (hopen : top ∉ program.callers method) :
    program.searchFrom top (method :: rest) search =
      program.searchFrom top ((program.callers method).toList ++ rest) (search.visit method) := by
  rw [searchFrom, if_neg hfresh, if_neg hopen]

end Rounds

theorem visited_searchFrom {stack : List MethodRef} {search : Search} {method : MethodRef}
    (h : method ∈ search.visited) : method ∈ (program.searchFrom top stack search).visited :=
  ((explores_searchFrom program top stack search).visited method).mpr (.inl h)

/-- A search visits all of its stack. -/
theorem mem_visited_searchFrom {stack : List MethodRef} {search : Search} {method : MethodRef}
    (h : method ∈ stack) : method ∈ (program.searchFrom top stack search).visited := by
  by_cases hold : method ∈ search.visited
  · exact visited_searchFrom hold
  · exact ((explores_searchFrom program top stack search).visited method).mpr
      (.inr ⟨method, h, .here hold⟩)

/-- A stack of methods that were all visited changes nothing. -/
theorem searchFrom_of_visited {stack : List MethodRef} {search : Search}
    (h : ∀ method ∈ stack, method ∈ search.visited) :
    program.searchFrom top stack search = search := by
  induction stack with
  | nil => exact searchFrom_nil search
  | cons method rest ih =>
    obtain ⟨hmethod, hrest⟩ := List.forall_mem_cons.mp h
    rw [searchFrom_cons_of_mem hmethod, ih hrest]

theorem searchFrom_append (program : Program) (top : MethodRef) (stack rest : List MethodRef)
    (search : Search) :
    program.searchFrom top (stack ++ rest) search =
      program.searchFrom top rest (program.searchFrom top stack search) := by
  induction stack, search using searchFrom.induct program top with
  | case1 search => rw [List.nil_append, searchFrom.eq_def program top []]
  | case2 method stack search hmem ih =>
    rw [List.cons_append, searchFrom, if_pos hmem, ih, searchFrom.eq_def program top (_ :: stack)]
    simp only [if_pos hmem]
  | case3 method stack search hfresh hcalled ih =>
    rw [List.cons_append, searchFrom, if_neg hfresh, if_pos hcalled, ih,
      searchFrom.eq_def program top (_ :: stack)]
    simp only [if_neg hfresh, if_pos hcalled]
  | case4 method stack search hfresh hopen ih =>
    rw [List.cons_append, searchFrom, if_neg hfresh, if_neg hopen, ← List.append_assoc, ih,
      searchFrom.eq_def program top (_ :: stack)]
    simp only [if_neg hfresh, if_neg hopen]

/-- The search read as a recursion: the callers of a method are searched one after another, each
with what the ones before it found and visited. A method that calls itself need not be asked. -/
theorem searchFrom_singleton (program : Program) (base top : MethodRef) (search : Search) :
    program.searchFrom top [base] search =
      if base ∈ search.visited then search
      else if top ∈ program.callers base then search.collect base
      else ((program.callers base).toList.filter (· ≠ base)).foldl
        (fun search caller => program.searchFrom top [caller] search) (search.visit base) := by
  have hfold (callers : List MethodRef) (search : Search) (hmem : base ∈ search.visited) :
      program.searchFrom top callers search = (callers.filter (· ≠ base)).foldl
        (fun search caller => program.searchFrom top [caller] search) search := by
    induction callers generalizing search with
    | nil => rw [searchFrom]; rfl
    | cons caller rest ih =>
      by_cases heq : caller = base
      · subst heq
        rw [searchFrom, if_pos hmem, List.filter_cons_of_neg (by simp), ih search hmem]
      · rw [List.filter_cons_of_pos (by simpa using heq), List.foldl_cons,
          ← ih _ (visited_searchFrom hmem), ← searchFrom_append, List.singleton_append]
  rw [searchFrom]
  split
  · rw [searchFrom]
  · split
    · rw [searchFrom]
    · rw [List.append_nil]
      exact hfold _ _ (MethodSet.mem_insert.mpr (.inl rfl))

theorem reaches_singleton {visited : MethodSet} {base target : MethodRef} :
    program.Reaches top visited [base] target ↔ program.Climb top visited base target := by
  simp [Reaches]

/-- The predecessors are the methods at the end of an open chain that the top calls directly. -/
theorem mem_predecessors {base method : MethodRef} :
    method ∈ program.predecessors base top ↔
      program.Climb top ∅ base method ∧ program.CalledBy method top := by
  obtain ⟨new, hfound, -, hnew⟩ := (explores_searchFrom program top [base] {}).found
  have hlist : program.predecessors base top = new := hfound
  rw [hlist, hnew, reaches_singleton]
  simp

/-- A search from one method is exact, whatever it has found and visited before. If the method was
visited nothing changes. Otherwise it visits exactly the ends of open chains, and it appends to what
it has found, each once, exactly those of them that the top calls directly and that were not found
before. A search that starts with nothing therefore finds exactly the methods which the top calls
directly and which are reached from the base through methods that the top does not call. -/
theorem searchFrom_eq_climb (program : Program) (base top : MethodRef) (search : Search) :
    (if base ∈ search.visited then program.searchFrom top [base] search = search
      else
        (∀ method, method ∈ (program.searchFrom top [base] search).visited ↔
          method ∈ search.visited ∨ program.Climb top search.visited base method) ∧
        ∃ new, (program.searchFrom top [base] search).found = search.found ++ new ∧ new.Nodup ∧
          ∀ method, method ∈ new ↔ program.Climb top search.visited base method ∧
            program.CalledBy method top ∧ method ∉ search.found) ∧
      ∀ method, method ∈ program.predecessors base top ↔
        program.Climb top ∅ base method ∧ program.CalledBy method top := by
  refine ⟨?_, fun _ => mem_predecessors⟩
  split
  · next hmem => rw [searchFrom_singleton, if_pos hmem]
  · have hexplores := explores_searchFrom program top [base] search
    simpa only [reaches_singleton] using And.intro hexplores.visited hexplores.found

end Program

end DalvikRules
