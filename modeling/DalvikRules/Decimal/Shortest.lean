/-!
# Shortest decimals of binary numbers

A positive binary number `m · 2 ^ q` stands for all reals that round to it. Among the decimals in
that interval the shortest are those on the coarsest grid of a power of ten that has a point in the
interval. On that grid the two neighbours of the number are tried, and the nearer one is taken. All
of this is exact arithmetic on natural numbers: the number and the ends of its interval are counted
in quarters of `2 ^ q`.
-/

namespace DalvikRules.Decimal

/-- A positive number `mantissa · 2 ^ exponent`. -/
structure Binary where
  mantissa : Nat
  exponent : Int
deriving DecidableEq, Repr, Inhabited

/-- A number `digits · 10 ^ exponent`. -/
structure Scaled where
  digits : Nat
  exponent : Int
deriving DecidableEq, Repr, Inhabited

/-- Which of two neighbours at the same distance is taken. -/
inductive Tie
  /-- The one with an even last digit. -/
  | even
  /-- The larger one. -/
  | up
deriving DecidableEq, Repr, Inhabited

/-- A non-negative real as a quotient of natural numbers. -/
structure Ratio where
  numerator : Nat
  denominator : Nat
deriving DecidableEq, Repr

namespace Ratio

/-- `quarters · 2 ^ (exponent - 2) / 10 ^ grid`: a multiple of a quarter unit, measured on the grid
of a power of ten. -/
def onGrid (quarters : Nat) (exponent grid : Int) : Ratio where
  numerator := (quarters <<< (exponent - 2).toNat) * Nat.pow 10 (-grid).toNat
  denominator := (1 <<< (2 - exponent).toNat) * Nat.pow 10 grid.toNat

/-- Whether a natural number lies below a ratio, or on it where `closed` holds. -/
def isUpperEnd (ratio : Ratio) (closed : Bool) (n : Nat) : Bool :=
  n * ratio.denominator < ratio.numerator || (closed && n * ratio.denominator == ratio.numerator)

/-- Whether a natural number lies above a ratio, or on it where `closed` holds. -/
def isLowerEnd (ratio : Ratio) (closed : Bool) (n : Nat) : Bool :=
  ratio.numerator < n * ratio.denominator || (closed && n * ratio.denominator == ratio.numerator)

end Ratio

/-- The least mantissa of 53 bits. -/
def leastNormal : Nat := 4503599627370496

namespace Binary

/-- Whether the next smaller binary number is only half as far away as the next larger one: the
mantissa is the least of its binade, and the binade is not the lowest. -/
def halfGapBelow (number : Binary) : Bool :=
  number.mantissa == leastNormal && decide (-1074 < number.exponent)

/-- The point of a grid that stands for the number, if the grid has one. The ends of the interval
round to the number exactly if its mantissa is even. -/
def onGrid? (number : Binary) (tie : Tie) (grid : Int) : Option Nat :=
  let m := number.mantissa
  let closed := m % 2 == 0
  let low := Ratio.onGrid (if number.halfGapBelow then 4 * m - 1 else 4 * m - 2)
    number.exponent grid
  let high := Ratio.onGrid (4 * m + 2) number.exponent grid
  let value := Ratio.onGrid (4 * m) number.exponent grid
  let floor := value.numerator / value.denominator
  let stands := fun n => low.isLowerEnd closed n && high.isUpperEnd closed n
  match stands floor, stands (floor + 1) with
  | false, false => none
  | true, false => some floor
  | false, true => some (floor + 1)
  | true, true =>
    let rest := 2 * (value.numerator % value.denominator)
    if rest < value.denominator then some floor
    else if value.denominator < rest then some (floor + 1)
    else match tie with
      | .even => some (if floor % 2 == 0 then floor else floor + 1)
      | .up => some (floor + 1)

/-- A power of ten that is greater than the number: a binary digit is worth less than 0.30103
decimal digits. -/
def magnitude (number : Binary) : Int :=
  ((number.mantissa.log2 + 1 : Nat) + number.exponent) * 30103 / 100000 + 1

/-- The decimal on the first of the grids `grid`, `grid - 1`, … that has one. -/
def firstOnGrids? (number : Binary) (tie : Tie) (grid : Int) : Nat → Option Scaled
  | 0 => none
  | grids + 1 =>
    match number.onGrid? tie grid with
    | some digits => some ⟨digits, grid⟩
    | none => number.firstOnGrids? tie (grid - 1) grids

/-- The shortest decimal that rounds to the number, and of several such the nearest. Seventeen
digits always suffice, so twenty grids below the magnitude are enough; should they not be, the
number itself is a decimal of the grid `exponent`. -/
def shortest (number : Binary) (tie : Tie) : Scaled :=
  (number.firstOnGrids? tie number.magnitude 20).getD
    ⟨(number.mantissa <<< number.exponent.toNat) * Nat.pow 5 (-number.exponent).toNat,
      min number.exponent 0⟩

end Binary

/-- The parts of a double that is neither infinite nor undefined. -/
inductive Double
  | zero (negative : Bool)
  | finite (negative : Bool) (magnitude : Binary)
  | infinite (negative : Bool)
  | undefined
deriving DecidableEq, Repr

/-- Reads the sign, the exponent and the mantissa off the bits of a double. -/
def Double.ofBits (bits : Nat) : Double :=
  let negative := (bits >>> 63) % 2 == 1
  let exponent : Nat := (bits >>> 52) % 2048
  let fraction : Nat := bits % leastNormal
  if exponent = 2047 then (if fraction = 0 then .infinite negative else .undefined)
  else if exponent = 0 then
    if fraction = 0 then .zero negative else .finite negative ⟨fraction, -1074⟩
  else .finite negative ⟨leastNormal + fraction, (exponent : Int) - 1075⟩

end DalvikRules.Decimal
