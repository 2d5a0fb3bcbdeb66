import Oreo.Number.Double

/-!
# The fewest digits that identify a double

The reals that round to a double form an interval around it: from halfway to the neighbour
below to halfway to the neighbour above, ends included exactly when the mantissa is even.
`Magnitude.shortest` looks for a decimal in that interval on coarser grids first: one digit, then
two, up to seventeen, which always suffice. On each grid only the two neighbours of the value
can be the nearest. All comparisons are between natural numbers.
-/

namespace Oreo

/-- A positive decimal: the digits behind the point, times a power of ten. The value is
`0.digits * 10 ^ point`. -/
structure Decimal where
  /-- The significant digits, without zeros at the end. -/
  digits : List Char
  /-- The power of ten: how many digits stand before the point in positional form. -/
  point : Int
deriving DecidableEq, Repr

/-- Which of two equally near decimals is taken. -/
inductive Tie where
  /-- The one whose last digit is even. -/
  | toEven
  /-- The larger one. -/
  | up
deriving DecidableEq, Repr

namespace Decimal

/-- The decimal `digits * 10 ^ exponent`, with its zeros at the end dropped. -/
def ofScaled (digits : Nat) (exponent : Int) : Decimal :=
  let written := Nat.toDigits 10 digits
  { digits := (written.reverse.dropWhile (· == '0')).reverse
    point := written.length + exponent }

end Decimal

namespace Magnitude

/-- How `digits * 10 ^ exponent` compares with `units * 2 ^ power`. -/
def compareScaled (digits : Nat) (exponent : Int) (units : Nat) (power : Int) : Ordering :=
  compare (digits * Nat.pow 10 exponent.toNat * Nat.pow 2 (-power).toNat)
    (units * Nat.pow 2 power.toNat * Nat.pow 10 (-exponent).toNat)

/-- Whether `digits * 10 ^ exponent` lies among the reals that round to
`mantissa * 2 ^ power`. Below a power of two the neighbour is half as far away. -/
def readsBack (mantissa : Nat) (power : Int) (digits : Nat) (exponent : Int) : Bool :=
  let narrow := mantissa = Nat.pow 2 52 ∧ minExponent < power
  let low := if narrow then 4 * mantissa - 1 else 4 * mantissa - 2
  let high := 4 * mantissa + 2
  let inclusive := mantissa % 2 == 0
  let fromLow := compareScaled digits exponent low (power - 2)
  let fromHigh := compareScaled digits exponent high (power - 2)
  (fromLow == .gt || (inclusive && fromLow == .eq)) &&
    (fromHigh == .lt || (inclusive && fromHigh == .eq))

/-- The least power of ten above `mantissa * 2 ^ power`, for a positive mantissa. -/
def decimalOrder (mantissa : Nat) (power : Int) : Int :=
  let numerator := mantissa * Nat.pow 2 power.toNat
  let denominator := Nat.pow 2 (-power).toNat
  if denominator ≤ numerator then (Nat.toDigits 10 (numerator / denominator)).length
  else 1 - (Nat.toDigits 10 (denominator / numerator)).length

/-- The nearest multiple of `10 ^ exponent` that reads back, if one of the two neighbours of
the value does. -/
def onGrid (tie : Tie) (mantissa : Nat) (power exponent : Int) : Option Nat :=
  let numerator := mantissa * Nat.pow 2 power.toNat * Nat.pow 10 (-exponent).toNat
  let denominator := Nat.pow 2 (-power).toNat * Nat.pow 10 exponent.toNat
  let low := numerator / denominator
  let lowFits := readsBack mantissa power low exponent
  let highFits := readsBack mantissa power (low + 1) exponent
  let lowIsNearer :=
    match compare (2 * (numerator % denominator)) denominator with
    | .lt => true
    | .gt => false
    | .eq => tie == .toEven && low % 2 == 0
  if lowFits && (lowIsNearer || !highFits) then some low
  else if highFits then some (low + 1)
  else none

/-- The decimal with the fewest digits that reads back as `mantissa * 2 ^ power`, for a
positive mantissa; of several the nearest, and of two equally near ones as `tie` says. -/
def shortest (tie : Tie) (mantissa : Nat) (power : Int) : Decimal :=
  let order := decimalOrder mantissa power
  let found := (List.range 17).findSome? fun (count : Nat) =>
    let exponent := order - ((count : Int) + 1)
    (onGrid tie mantissa power exponent).map (Decimal.ofScaled · exponent)
  found.getD <|
    if 0 ≤ power then .ofScaled (mantissa * Nat.pow 2 power.toNat) 0
    else .ofScaled (mantissa * Nat.pow 5 (-power).toNat) power

end Magnitude

end Oreo
