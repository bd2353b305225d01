import DalvikRules.Program
import DalvikRules.ValueFlow

/-!
# Values shared by two calls

Two names share a value in a body if one value of the body was handled by an invocation whose
target mentions the first name and by one whose target mentions the second. Bodies that differ only
in their descriptor have values of their own.
-/

namespace DalvikRules

/-- Whether one value of the body is handled by targets that mention `first` and `second`. -/
def Body.sharesValue (body : Body) (first second : String) : Bool :=
  (valuesOf body.instructions).any fun value => value.usedByAny first && value.usedByAny second

theorem Body.sharesValue_comm (body : Body) (first second : String) :
    body.sharesValue second first = body.sharesValue first second := by
  simp only [sharesValue, Bool.and_comm]

/-- Whether some body of `common` has a value that both names share. -/
def Program.sharesValue (program : Program) (common : MethodRef) (first second : String) : Bool :=
  (program.bodiesOf common).any (·.sharesValue first second)

/-- Two names share a value or they do not, whichever is asked for first. -/
theorem Program.sharesValue_comm (program : Program) (common : MethodRef) (first second : String) :
    program.sharesValue common second first = program.sharesValue common first second := by
  simp only [sharesValue, Body.sharesValue_comm _ first second]

end DalvikRules
