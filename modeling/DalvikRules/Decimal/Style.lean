import DalvikRules.Decimal.Shortest

/-!
# Writing doubles

The digits of a double are chosen first and laid out second. A style says how the digits are
chosen at a tie, in which range the number is written without an exponent, whether a whole number
keeps a fraction, and what is written for infinity and for an undefined number.
-/

namespace DalvikRules.Decimal

/-- How doubles are written. -/
structure Style where
  tie : Tie
  /-- Powers of ten of the leading digit, from the first up to and without the second, that are
  written without an exponent; all powers are if there is no range. -/
  positional : Option (Int × Int)
  /-- Whether a whole number is written with `.0`. -/
  keepsFraction : Bool
  /-- The text of infinity, given its sign. -/
  infinite : Bool → String
  undefined : String

/-- The digits of a number without its trailing zeros, and the position of the decimal point
relative to the first digit. -/
def layout (decimal : Scaled) : List Char × Int :=
  let digits := Nat.toDigits 10 decimal.digits
  ((digits.reverse.dropWhile (· = '0')).reverse, digits.length + decimal.exponent)

/-- Digits with the decimal point at the given position, filled up with zeros. -/
def positionalText (keepsFraction : Bool) (digits : List Char) (point : Int) : String :=
  let whole := digits.take point.toNat ++ List.replicate (point.toNat - digits.length) '0'
  let fraction := List.replicate (-point).toNat '0' ++ digits.drop point.toNat
  let left := if whole.isEmpty then "0" else String.ofList whole
  if fraction.isEmpty then (if keepsFraction then left ++ ".0" else left)
  else left ++ "." ++ String.ofList fraction

/-- Digits with the decimal point after the first one and a power of ten, whose sign is always
written. -/
def exponentText (digits : List Char) (point : Int) : String :=
  let power := point - 1
  let fraction := digits.drop 1
  String.ofList (digits.take 1) ++
    (if fraction.isEmpty then "" else "." ++ String.ofList fraction) ++
    (if power < 0 then "e-" else "e+") ++ toString power.natAbs

namespace Style

/-- Writes a positive number. -/
def magnitudeText (style : Style) (number : Binary) : String :=
  let (digits, point) := layout (number.shortest style.tie)
  match style.positional with
  | none => positionalText style.keepsFraction digits point
  | some (least, limit) =>
    if least ≤ point - 1 ∧ point - 1 < limit then positionalText style.keepsFraction digits point
    else exponentText digits point

/-- Writes a double. -/
def write (style : Style) (x : Float) : String :=
  let sign := fun negative => if negative then "-" else ""
  match Double.ofBits x.toBits.toNat with
  | .zero negative => sign negative ++ (if style.keepsFraction then "0.0" else "0")
  | .finite negative number => sign negative ++ style.magnitudeText number
  | .infinite negative => style.infinite negative
  | .undefined => style.undefined

/-- Doubles in running text have no exponent, and whole numbers no fraction. -/
def plain : Style where
  tie := .up
  positional := none
  keepsFraction := false
  infinite negative := if negative then "-inf" else "inf"
  undefined := "NaN"

/-- Doubles in documents keep a fraction, and have an exponent from `1e+16` and below `1e-5`.
Where there is no number, nothing can be written. -/
def document : Style where
  tie := .even
  positional := some (-5, 16)
  keepsFraction := true
  infinite _ := "null"
  undefined := "null"

end Style

end DalvikRules.Decimal
