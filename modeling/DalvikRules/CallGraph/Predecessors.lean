import DalvikRules.Program

/-!
# The steps below a caller

A method `top` that reaches a method `base` through calls does so by first calling some method
between the two. The search walks from `base` upwards through callers, depth first and in
ascending order, and collects every method on the way that `top` calls directly. It does not walk
past such a method, and it visits no method twice, so it ends on recursive programs as well.

What is still to be searched is a stack of methods. Each round either drops a visited method from
the stack or visits a new one; `searchBound` turns this into a number that decreases.
-/

namespace DalvikRules

/-- Appends a method that is not in the list yet. -/
def addNew (methods : List MethodRef) (method : MethodRef) : List MethodRef :=
  if method ∈ methods then methods else methods ++ [method]

/-- What a search from below has found, and where it has been. -/
structure Search where
  /-- The methods that the top calls directly, in the order of discovery. -/
  found : List MethodRef := []
  visited : MethodSet := ∅

namespace Search

/-- The search after `method` was visited without being called by the top. -/
def visit (search : Search) (method : MethodRef) : Search :=
  { search with visited := search.visited.insert method }

/-- The search after `method` was visited and turned out to be called by the top. -/
def collect (search : Search) (method : MethodRef) : Search :=
  { found := addNew search.found method, visited := search.visited.insert method }

end Search

namespace Program

/-- A bound on the rounds left: every method with a body is visited once, and so is every method
without one that the stack starts with; each visit puts at most all bodies on the stack. -/
def searchBound (program : Program) (stack : List MethodRef) (visited : MethodSet) : Nat :=
  let nodes := program.bodies.map Body.method
  (nodes.length + 1) * (nodes.countP (· ∉ visited) + stack.countP (· ∉ nodes)) + stack.length

private theorem countP_lt_countP_of_mem {α : Type} {p q : α → Bool} {l : List α} {a : α}
    (ha : a ∈ l) (hp : p a = false) (hq : q a = true) (himp : ∀ x, p x = true → q x = true) :
    l.countP p < l.countP q := by
  induction l with
  | nil => simp at ha
  | cons b rest ih =>
    have hrest : rest.countP p ≤ rest.countP q := List.countP_mono_left fun x _ => himp x
    rcases List.mem_cons.mp ha with rfl | hmem
    · simp only [List.countP_cons, hp, hq]
      grind
    · have hlt := ih hmem
      have := himp b
      simp only [List.countP_cons]
      grind

private theorem length_callers_le (program : Program) (method : MethodRef) :
    (program.callers method).toList.length ≤ (program.bodies.map Body.method).length := by
  rw [Std.ExtTreeSet.length_toList]
  apply MethodSet.size_le_length
  intro caller hcaller
  exact mem_bodies_of_mem_callers hcaller

private theorem searchBound_visit {program : Program} {method : MethodRef} {rest : List MethodRef}
    {visited : MethodSet} (new : List MethodRef) (hfresh : method ∉ visited)
    (hnew : new = [] ∨ new = (program.callers method).toList) :
    program.searchBound (new ++ rest) (visited.insert method) <
      program.searchBound (method :: rest) visited := by
  have hlength : new.length ≤ (program.bodies.map Body.method).length := by
    rcases hnew with rfl | rfl
    · simp
    · exact length_callers_le program method
  have hstrangers : new.countP (· ∉ program.bodies.map Body.method) = 0 := by
    rw [List.countP_eq_zero]
    rcases hnew with rfl | rfl
    · simp
    · intro caller hcaller
      simpa using mem_bodies_of_mem_callers (Std.ExtTreeSet.mem_toList.mp hcaller)
  simp only [searchBound]
  generalize hnodes : program.bodies.map Body.method = nodes at hlength hstrangers ⊢
  have hcount : nodes.countP (· ∉ visited.insert method) + (new ++ rest).countP (· ∉ nodes) + 1 ≤
      nodes.countP (· ∉ visited) + (method :: rest).countP (· ∉ nodes) := by
    rw [List.countP_append, hstrangers, List.countP_cons]
    have hmono : nodes.countP (· ∉ visited.insert method) ≤ nodes.countP (· ∉ visited) :=
      List.countP_mono_left fun x _ hx => by
        simp only [decide_eq_true_eq, Std.ExtTreeSet.mem_insert, not_or] at hx ⊢
        exact hx.2
    by_cases hmem : method ∈ nodes
    · have hlt : nodes.countP (· ∉ visited.insert method) < nodes.countP (· ∉ visited) := by
        refine countP_lt_countP_of_mem hmem ?_ (by simpa using hfresh) fun x hx => ?_
        · simp [Std.ExtTreeSet.mem_insert]
        · simp only [decide_eq_true_eq, Std.ExtTreeSet.mem_insert, not_or] at hx ⊢
          exact hx.2
      simp only [hmem, not_true_eq_false, decide_false]
      omega
    · simp only [hmem, not_false_eq_true, decide_true]
      simp only [if_true]
      omega
  have hmul := Nat.mul_le_mul_left (nodes.length + 1) hcount
  rw [Nat.mul_add, Nat.mul_one] at hmul
  simp only [List.length_append, List.length_cons]
  omega

private theorem searchBound_skip {program : Program} {method : MethodRef} {rest : List MethodRef}
    {visited : MethodSet} :
    program.searchBound rest visited < program.searchBound (method :: rest) visited := by
  simp only [searchBound, List.length_cons]
  have hcount : rest.countP (· ∉ program.bodies.map Body.method) ≤
      (method :: rest).countP (· ∉ program.bodies.map Body.method) := by
    rw [List.countP_cons]
    omega
  have hmul := Nat.mul_le_mul_left ((program.bodies.map Body.method).length + 1)
    (Nat.add_le_add_left hcount ((program.bodies.map Body.method).countP (· ∉ visited)))
  omega

/-- Searches upwards from the methods on the stack, the first one to its end before the next. -/
def searchFrom (program : Program) (top : MethodRef) : List MethodRef → Search → Search
  | [], search => search
  | method :: rest, search =>
    if method ∈ search.visited then
      searchFrom program top rest search
    else if top ∈ program.callers method then
      searchFrom program top rest (search.collect method)
    else
      searchFrom program top ((program.callers method).toList ++ rest) (search.visit method)
termination_by stack search => program.searchBound stack search.visited
decreasing_by
  · exact searchBound_skip
  · exact searchBound_visit [] ‹_› (Or.inl rfl)
  · exact searchBound_visit _ ‹_› (Or.inr rfl)

/-- The methods on the way up from `base` that `top` calls directly, in the order of discovery. -/
def predecessors (program : Program) (base top : MethodRef) : List MethodRef :=
  (program.searchFrom top [base] {}).found

end Program

end DalvikRules
