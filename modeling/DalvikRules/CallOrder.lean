import DalvikRules.Program

/-!
# The order of two calls

Call sites are compared by the offsets they stand at and matched by method name only. A name may be
called several times. The loose reading asks for one call of the first name before one call of the
second; the strict reading asks for all calls of the first name before all calls of the second, and
for at least one of each.
-/

namespace DalvikRules

/-- How "first before second" is read when a name is called more than once. -/
inductive SequenceMode
  /-- The earliest first call precedes the latest second call. -/
  | loose
  /-- The latest first call precedes the earliest second call. -/
  | strict
deriving DecidableEq, Repr, Inhabited

/-- The offsets of the call sites of a name. -/
def positionsOf (sites : List CallSite) (name : String) : List Nat :=
  (sites.filter (·.callee.name = name)).map CallSite.position

/-- Whether the first offset is there and less than the second, which has to be there too. -/
def precedes : Option Nat → Option Nat → Bool
  | some first, some second => first < second
  | _, _ => false

/-- Whether calls of `first` stand before calls of `second` in the given reading. -/
def callsInOrder (mode : SequenceMode) (sites : List CallSite) (first second : String) : Bool :=
  match mode with
  | .loose => precedes (positionsOf sites first).min? (positionsOf sites second).max?
  | .strict => precedes (positionsOf sites first).max? (positionsOf sites second).min?

/-- Whether `common` calls the name of `first` before the name of `second`. The call sites of all
methods known under the key of `common` are read together. -/
def Program.callsInOrder (program : Program) (mode : SequenceMode)
    (common first second : MethodRef) : Bool :=
  match program.find? common with
  | none => false
  | some methods =>
    DalvikRules.callsInOrder mode (methods.flatMap Method.callSites) first.name second.name

end DalvikRules
