import DalvikRules.Method
import DalvikRules.Storage.Path

/-!
# Rules

A rule describes a behaviour: the permissions it needs and two methods that have to work together.
A program passes up to five levels of a rule. The rule has a score, and a weight for each number of
passed levels. The default weights double from level to level and reach the score at the fifth.
-/

namespace DalvikRules

namespace Text

/-- Whether a character is white space in the sense of Unicode: one of the twenty-five with the
property `White_Space`. -/
def isBlank (c : Char) : Bool :=
  let n := c.toNat
  (0x09 ≤ n && n ≤ 0x0D) || n == 0x20 || n == 0x85 || n == 0xA0 || n == 0x1680 ||
    (0x2000 ≤ n && n ≤ 0x200A) || n == 0x2028 || n == 0x2029 || n == 0x202F || n == 0x205F ||
    n == 0x3000

/-- Whether a text has no character other than white space. -/
def blank (text : String) : Bool :=
  text.toList.all isBlank

end Text

/-- How many levels a rule has. -/
def levelCount : Nat := 5

/-- Natural numbers as doubles, the nearest one where there is no equal one. -/
instance natCastFloat : NatCast Float := ⟨Float.ofNat⟩

/-- The default weight of a rule of the given score after `passed` levels: nothing before the first
level, a sixteenth of the score after it, and twice as much after each further level. -/
def defaultWeight {W : Type} [NatCast W] [Mul W] [Div W] (score passed : Nat) : W :=
  match passed with
  | 0 => ((0 : Nat) : W)
  | further + 1 => ((score : Nat) : W) * ((Nat.pow 2 further : Nat) : W) / ((16 : Nat) : W)

/-- The weights of a rule after no, one, … and five passed levels. -/
abbrev WeightTable := Vector Float (levelCount + 1)

/-- The table of default weights. -/
def WeightTable.ofScore (score : Nat) : WeightTable :=
  Vector.ofFn fun passed => defaultWeight score passed.val

/-- A behaviour that a program is graded against. -/
structure Rule where
  crime : String
  permissions : List String
  first : MethodRef
  second : MethodRef
  score : Nat
  weights : WeightTable
  /-- The file that the rule was read from. -/
  source : Option Path
deriving Inhabited

namespace Rule

/-- The weight earned by the given number of passed levels. -/
def weight (rule : Rule) (passed : Nat) : Float :=
  rule.weights.get ⟨min passed levelCount, Nat.lt_succ_of_le (Nat.min_le_right ..)⟩

/-- What a rule is reported as: its description, or the name of its file if the description is
blank. -/
def label (rule : Rule) : String :=
  if Text.blank rule.crime then ((rule.source.bind Path.fileName?).map RawText.shown).getD ""
  else rule.crime

end Rule

end DalvikRules
