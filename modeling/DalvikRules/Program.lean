import Std.Data.TreeMap
import DalvikRules.Instruction

/-!
# Programs

A program is a list of method bodies together with the permissions it was granted. Its questions
are answered from an index that is built in one pass over the bodies: under each key stand the
bodies declared with it, the methods that invoke it, and the first invocation that names it. A
method that is only invoked is external; it is known by that first invocation and has no
instructions.

The three lemmas on `Index.ofBodies` say what stands under a key in terms of the bodies alone.
-/

namespace DalvikRules

/-- An invocation inside a body: the method it names and the offset it stands at. -/
structure CallSite where
  callee : MethodRef
  position : Nat
deriving DecidableEq, Repr, Inhabited

/-- A declared method with its instructions. -/
structure Body where
  method : MethodRef
  descriptor : String
  instructions : List Instruction
deriving DecidableEq, Repr, Inhabited

namespace Body

/-- The targets that a body invokes, in the order of its instructions. -/
def targets (body : Body) : List CallTarget :=
  body.instructions.filterMap Instruction.callTarget?

/-- The call sites of a body, in the order of its instructions. -/
def callSites (body : Body) : List CallSite :=
  body.instructions.filterMap fun inst =>
    inst.callTarget?.map fun target => ⟨target.method, inst.offset⟩

end Body

/-- A method that the analysis can be asked for. -/
inductive Method
  /-- A method whose body is part of the program. -/
  | declared (body : Body)
  /-- A method that the program only invokes. -/
  | external (target : CallTarget)
deriving DecidableEq, Repr, Inhabited

namespace Method

/-- The reference under which a method was declared or first invoked. -/
def ref : Method → MethodRef
  | .declared body => body.method
  | .external target => target.method

def descriptor : Method → String
  | .declared body => body.descriptor
  | .external target => target.descriptor

def isExternal : Method → Bool
  | .declared _ => false
  | .external _ => true

/-- The instructions of a method; an external method has none. -/
def instructions : Method → List Instruction
  | .declared body => body.instructions
  | .external _ => []

/-- The call sites of a method; an external method has none. -/
def callSites : Method → List CallSite
  | .declared body => body.callSites
  | .external _ => []

end Method

/-- What stands under one key. -/
structure Entry where
  /-- The bodies declared with the key, in the order of the program. -/
  bodies : List Body := []
  /-- The methods with an invocation of the key. -/
  callers : MethodSet := ∅
  /-- The first invocation of the key, in the order of the program. -/
  firstCall? : Option CallTarget := none
deriving Inhabited

namespace Entry

/-- The methods known under a key: its bodies, or else the external method that is invoked. -/
def methods (entry : Entry) : List Method :=
  if entry.bodies.isEmpty then entry.firstCall?.toList.map .external
  else entry.bodies.map .declared

end Entry

/-- The entries of all keys that a program declares or invokes. -/
abbrev Index := Std.TreeMap MethodKey Entry

namespace Index

/-- The entry under a key; a key that the program does not mention has an empty one. -/
def entry (index : Index) (key : MethodKey) : Entry :=
  index[key]?.getD {}

/-- Changes the entry under a key. -/
def update (index : Index) (key : MethodKey) (change : Entry → Entry) : Index :=
  index.alter key fun present => some (change (present.getD {}))

/-- Enters an invocation that stands before all invocations entered so far. -/
def addCall (caller : MethodRef) (target : CallTarget) (index : Index) : Index :=
  index.update target.method.key fun entry =>
    { entry with callers := entry.callers.insert caller, firstCall? := some target }

/-- Enters a body that stands before all bodies entered so far, with its invocations. -/
def addBody (body : Body) (index : Index) : Index :=
  body.targets.foldr (addCall body.method)
    (index.update body.method.key fun entry => { entry with bodies := body :: entry.bodies })

/-- The index of a list of bodies. The list is entered from its end, so that entries come out in
the order of the list. -/
def ofBodies (bodies : List Body) : Index :=
  bodies.foldr addBody ∅

theorem entry_empty (key : MethodKey) : entry ∅ key = {} := by
  simp [entry]

theorem entry_update (index : Index) (key other : MethodKey) (change : Entry → Entry) :
    (index.update key change).entry other =
      if key = other then change (index.entry key) else index.entry other := by
  simp only [entry, update, Std.TreeMap.getElem?_alter, Std.LawfulEqOrd.compare_eq_iff_eq]
  split <;> rfl

theorem entry_addCalls (caller : MethodRef) (targets : List CallTarget) (index : Index)
    (key : MethodKey) :
    let entered := (targets.foldr (addCall caller) index).entry key
    entered.bodies = (index.entry key).bodies ∧
      (∀ method, method ∈ entered.callers ↔
        (method = caller ∧ ∃ target ∈ targets, target.method.key = key) ∨
          method ∈ (index.entry key).callers) ∧
      entered.firstCall? =
        (targets.find? (·.method.key = key)).or (index.entry key).firstCall? := by
  induction targets with
  | nil => simp
  | cons target rest ih =>
    obtain ⟨hbodies, hcallers, hfirst⟩ := ih
    simp only [List.foldr_cons, addCall, entry_update]
    by_cases hkey : target.method.key = key
    · subst hkey
      refine ⟨by simpa using hbodies, fun method => ?_, by simp⟩
      simp only [if_true, Std.ExtTreeSet.mem_insert, Std.LawfulEqOrd.compare_eq_iff_eq]
      rw [hcallers method]
      grind
    · simp only [if_neg hkey]
      refine ⟨hbodies, fun method => ?_, by simpa [hkey] using hfirst⟩
      rw [hcallers method]
      grind

/-- Under a key stand exactly the bodies declared with it, in their order. -/
theorem bodies_ofBodies (bodies : List Body) (key : MethodKey) :
    ((ofBodies bodies).entry key).bodies = bodies.filter (·.method.key = key) := by
  induction bodies with
  | nil => simp [ofBodies, entry_empty]
  | cons body rest ih =>
    simp only [ofBodies, List.foldr_cons, addBody] at ih ⊢
    rw [(entry_addCalls _ _ _ _).1, entry_update]
    by_cases hkey : body.method.key = key
    · subst hkey
      simp [ih]
    · simp [hkey, ih]

/-- The callers under a key are exactly the methods of bodies that invoke it. -/
theorem mem_callers_ofBodies (bodies : List Body) (key : MethodKey) (method : MethodRef) :
    method ∈ ((ofBodies bodies).entry key).callers ↔
      ∃ body ∈ bodies, body.method = method ∧ ∃ target ∈ body.targets, target.method.key = key := by
  induction bodies with
  | nil => simp [ofBodies, entry_empty]
  | cons body rest ih =>
    simp only [ofBodies, List.foldr_cons, addBody] at ih ⊢
    rw [(entry_addCalls _ _ _ _).2.1 method, entry_update]
    have hsame : (if body.method.key = key then
        { entry (rest.foldr addBody ∅) body.method.key with
          bodies := body :: (entry (rest.foldr addBody ∅) body.method.key).bodies }
        else entry (rest.foldr addBody ∅) key).callers =
          (entry (rest.foldr addBody ∅) key).callers := by
      split
      · next hkey => rw [hkey]
      · rfl
    rw [hsame, ih]
    grind

/-- The first call under a key is the first target of the bodies that has the key. -/
theorem firstCall?_ofBodies (bodies : List Body) (key : MethodKey) :
    ((ofBodies bodies).entry key).firstCall? =
      (bodies.flatMap Body.targets).find? (·.method.key = key) := by
  induction bodies with
  | nil => simp [ofBodies, entry_empty]
  | cons body rest ih =>
    simp only [ofBodies, List.foldr_cons, addBody] at ih ⊢
    rw [(entry_addCalls _ _ _ _).2.2, entry_update, List.flatMap_cons, List.find?_append]
    split
    · next hkey =>
      subst hkey
      simp [ih]
    · simp [ih]

end Index

/-- A disassembled application: the permissions it was granted and its method bodies, together
with the index that its questions are answered from. -/
structure Program where
  permissions : Std.ExtTreeSet String
  bodies : List Body
  index : Index := Index.ofBodies bodies
  /-- The index holds what the bodies say. -/
  index_eq : index = Index.ofBodies bodies := by rfl

namespace Program

/-- The methods known under the key of a reference: all bodies declared with it, or the external
method that is invoked, or nothing. -/
def find? (program : Program) (method : MethodRef) : Option (List Method) :=
  match (program.index.entry method.key).methods with
  | [] => none
  | first :: rest => some (first :: rest)

/-- The methods that directly invoke a method; an unknown method has none. -/
def callers (program : Program) (method : MethodRef) : MethodSet :=
  (program.index.entry method.key).callers

/-- The callers of a method, or nothing if the method is unknown. -/
def callers? (program : Program) (method : MethodRef) : Option MethodSet :=
  (program.find? method).map fun _ => program.callers method

/-- The bodies declared under the key of a reference. -/
def bodiesOf (program : Program) (method : MethodRef) : List Body :=
  (program.index.entry method.key).bodies

/-- How many methods are known: the bodies and the external methods. -/
def methodCount (program : Program) : Nat :=
  program.index.foldl (fun count _ entry => count + entry.methods.length) 0

/-- How many instructions the bodies have. -/
def instructionCount (program : Program) : Nat :=
  program.bodies.foldl (fun count body => count + body.instructions.length) 0

/-- Whoever invokes a method has a body. -/
theorem mem_bodies_of_mem_callers {program : Program} {method caller : MethodRef}
    (h : caller ∈ program.callers method) : caller ∈ program.bodies.map Body.method := by
  rw [callers, program.index_eq, Index.mem_callers_ofBodies] at h
  obtain ⟨body, hbody, hmethod, _⟩ := h
  exact List.mem_map.mpr ⟨body, hbody, hmethod⟩

end Program

end DalvikRules
