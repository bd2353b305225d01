import DalvikRules.Instruction

/-!
# Values in one body

The instructions of a body are run in order over a table of values. A value is created by an
instruction, travels through moves, and collects the text of every invocation that produced it or
receives it. Registers only name values: a register is bound to the position of its value in the
table, and a write that is not tracked takes the binding away. The result of an invocation is on
offer for exactly one instruction.
-/

namespace DalvikRules

/-- A value followed through one body. -/
structure TrackedValue where
  /-- The registers that took the value, in the order of binding. -/
  registers : List Register
  /-- The operand of the creating instruction, if it had one. -/
  origin : Option String
  /-- The targets of the invocations that produced or received the value. -/
  usedBy : List String
deriving DecidableEq, Repr, Inhabited

namespace TrackedValue

/-- The value is now held by `dest` too. -/
def hold (dest : Register) (value : TrackedValue) : TrackedValue :=
  { value with registers := value.registers ++ [dest] }

/-- The value was handed to `target`. -/
def handTo (target : CallTarget) (value : TrackedValue) : TrackedValue :=
  { value with usedBy := value.usedBy ++ [target.text] }

/-- Whether some invocation that handled the value has `fragment` in its target. -/
def usedByAny (value : TrackedValue) (fragment : String) : Bool :=
  value.usedBy.any (Text.contains · fragment)

end TrackedValue

/-- The position in the value table that each register names; at most one per register. -/
abbrev Bindings := List (Register × Nat)

namespace Bindings

/-- `register` names nothing any more. -/
def unbind (bindings : Bindings) (register : Register) : Bindings :=
  bindings.filter (·.1 ≠ register)

/-- `register` names the value at `position`. -/
def bind (bindings : Bindings) (register : Register) (position : Nat) : Bindings :=
  (register, position) :: bindings.unbind register

/-- The position that `register` names. -/
def lookup? (bindings : Bindings) (register : Register) : Option Nat :=
  List.lookup register bindings

theorem lookup?_unbind (bindings : Bindings) (register other : Register) :
    (bindings.unbind register).lookup? other =
      if other = register then none else bindings.lookup? other := by
  induction bindings with
  | nil => simp [unbind, lookup?]
  | cons binding rest ih =>
    simp only [unbind, lookup?] at ih ⊢
    grind

theorem lookup?_bind (bindings : Bindings) (register other : Register) (position : Nat) :
    (bindings.bind register position).lookup? other =
      if other = register then some position else bindings.lookup? other := by
  have hunbind := lookup?_unbind bindings register other
  simp only [bind, lookup?] at hunbind ⊢
  grind

end Bindings

/-- What is known between two instructions of a body. -/
structure ValueFlow where
  /-- Every value so far, in the order of creation. -/
  values : Array TrackedValue := #[]
  bindings : Bindings := []
  /-- The invocation whose result the next instruction may take. -/
  pending : Option CallTarget := none
deriving DecidableEq, Repr, Inhabited

namespace ValueFlow

/-- A new value arrives in `dest`. -/
def create (flow : ValueFlow) (dest : Register) (origin : Option String)
    (usedBy : List String) : ValueFlow :=
  { values := flow.values.push ⟨[dest], origin, usedBy⟩
    bindings := flow.bindings.bind dest flow.values.size
    pending := none }

/-- `dest` names the value that `source` names, or nothing if `source` names nothing. -/
def move (flow : ValueFlow) (dest source : Register) : ValueFlow :=
  match flow.bindings.lookup? source with
  | some position =>
    { values := flow.values.modify position (TrackedValue.hold dest)
      bindings := flow.bindings.bind dest position
      pending := none }
  | none => { flow with bindings := flow.bindings.unbind dest, pending := none }

/-- The positions of the values handed over by `arguments`, each once. -/
def handed (flow : ValueFlow) (arguments : List Register) : List Nat :=
  (arguments.filterMap flow.bindings.lookup?).eraseDups

/-- The values held by `arguments` are handed to `target`, whose result is now on offer. -/
def invoke (flow : ValueFlow) (arguments : List Register) (target : CallTarget) : ValueFlow :=
  { values := (flow.handed arguments).foldl (fun values position =>
      values.modify position (TrackedValue.handTo target)) flow.values
    bindings := flow.bindings
    pending := some target }

/-- The flow after one more instruction with the given effect. -/
def step (flow : ValueFlow) : Effect → ValueFlow
  | .create dest origin => flow.create dest origin []
  | .move dest source => flow.move dest source
  | .moveResult dest =>
    match flow.pending with
    | some target => flow.create dest none [target.text]
    | none => { flow with bindings := flow.bindings.unbind dest, pending := none }
  | .invoke arguments target => flow.invoke arguments target
  | .overwrite dest => { flow with bindings := flow.bindings.unbind dest, pending := none }
  | .inert => { flow with pending := none }

/-- The flow after a whole stream of effects. -/
def run (effects : List Effect) : ValueFlow :=
  effects.foldl step {}

/-- The flow after each of the effects, starting from `flow`. -/
def states (flow : ValueFlow) : List Effect → List ValueFlow
  | [] => []
  | effect :: rest => flow.step effect :: states (flow.step effect) rest

end ValueFlow

/-- The values of a body in the order of creation. -/
def valuesOf (instructions : List Instruction) : Array TrackedValue :=
  (ValueFlow.run (instructions.map Instruction.effect)).values

end DalvikRules
