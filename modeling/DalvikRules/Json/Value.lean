/-!
# JSON values

Integers that fit into 64 bits are kept exactly; every other number is a double. The members of an
object are a list: a document that was read has them in ascending order of their names, a document
that is written has them in the order of its author.
-/

namespace DalvikRules

/-- The first natural number that 32 bits cannot hold. -/
def word32Limit : Nat := 4294967296

/-- The first natural number that 64 bits cannot hold. -/
def word64Limit : Nat := 18446744073709551616

namespace Json

/-- A number of a document. -/
inductive Number
  | integer (n : Int)
  | real (x : Float)
deriving Repr, Inhabited

/-- A document or a part of one. -/
inductive Value
  | null
  | bool (b : Bool)
  | number (n : Number)
  | string (s : String)
  | array (items : List Value)
  | object (members : List (String × Value))
deriving Repr, Inhabited

namespace Value

/-- The value of a natural number. -/
def ofNat (n : Nat) : Value :=
  .number (.integer n)

/-- The member of an object with the given name. -/
def member? (name : String) (members : List (String × Value)) : Option Value :=
  members.lookup name

end Value

/-- Members with one more, kept in ascending order of names. A member of the same name is
replaced. -/
def insertMember (name : String) (value : Value) :
    List (String × Value) → List (String × Value)
  | [] => [(name, value)]
  | (other, present) :: rest =>
    match compare name other with
    | .lt => (name, value) :: (other, present) :: rest
    | .eq => (name, value) :: rest
    | .gt => (other, present) :: insertMember name value rest

end Json

end DalvikRules
