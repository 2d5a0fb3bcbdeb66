/-!
# Values of numbers

A double is a sign and a magnitude, or undefined. A magnitude is a mantissa below `2 ^ 53` times
a power of two, or infinity. Number literals have no sign and are never undefined; a token that
is made otherwise may hold any double. All undefined values are one here, so equality is
decidable.

The exact value of a literal is a quotient of natural numbers. `Magnitude.ofRatio` rounds such a
quotient once, to the nearest magnitude, and a quotient halfway between two to the one with the
even mantissa.
-/

namespace Oreo

/-- A non-negative double. Finite values are written with the smallest exponent possible:
either the mantissa is at least `2 ^ 52`, or the exponent is `-1074`. -/
inductive Magnitude where
  /-- The value `mantissa * 2 ^ exponent`. -/
  | finite (mantissa : Nat) (exponent : Int)
  /-- A value beyond the largest finite double. -/
  | infinite
deriving DecidableEq, Repr

/-- A double. Zero has two signs. -/
inductive Double where
  /-- A value without a sign. -/
  | positive (size : Magnitude)
  /-- A value behind a minus sign. -/
  | negative (size : Magnitude)
  /-- The undefined value. -/
  | nan
deriving DecidableEq, Repr

namespace Magnitude

/-- The value zero. -/
def zero : Magnitude := .finite 0 (-1074)

/-- The exponent of the smallest doubles. -/
def minExponent : Int := -1074

/-- The exponent of the largest doubles. -/
def maxExponent : Int := 971

/-- The quotient rounded to the nearest natural number, a half to the even one. -/
def roundDiv (numerator denominator : Nat) : Nat :=
  let quotient := numerator / denominator
  match compare (2 * (numerator % denominator)) denominator with
  | .lt => quotient
  | .gt => quotient + 1
  | .eq => quotient + quotient % 2

/-- The least exponent at which a quotient of positive numbers has a mantissa below `2 ^ 53`,
but no less than the exponent of the smallest doubles. The binary logarithms give the order
of the quotient up to one step, which a comparison decides. -/
def scale (numerator denominator : Nat) : Int :=
  let order : Int := (numerator.log2 : Int) - denominator.log2
  let below := numerator * Nat.pow 2 (-order).toNat < denominator * Nat.pow 2 order.toNat
  max minExponent (if below then order - 53 else order - 52)

/-- The magnitude nearest to a quotient, ties to the even mantissa. -/
def ofRatio (numerator denominator : Nat) : Magnitude :=
  if numerator = 0 then zero
  else
    let exponent := scale numerator denominator
    let mantissa :=
      roundDiv (numerator * Nat.pow 2 (-exponent).toNat) (denominator * Nat.pow 2 exponent.toNat)
    -- Rounding up can reach the next power of two, which needs one exponent more.
    let (mantissa, exponent) :=
      if mantissa = Nat.pow 2 53 then (Nat.pow 2 52, exponent + 1) else (mantissa, exponent)
    if maxExponent < exponent then .infinite else .finite mantissa exponent

/-- Twice the value plus one binary digit, rounded once. -/
def appendBit : Magnitude → Bool → Magnitude
  | .infinite, _ => .infinite
  | .finite mantissa exponent, bit =>
    let denominator := Nat.pow 2 (-exponent).toNat
    ofRatio (2 * mantissa * Nat.pow 2 exponent.toNat + bit.toNat * denominator) denominator

example : ofRatio 1 1 = .finite (2 ^ 52) (-52) := by decide +kernel
example : ofRatio (2 ^ 53 + 1) 1 = ofRatio (2 ^ 53) 1 := by decide +kernel
example : ofRatio (2 ^ 1024 - 2 ^ 970) 1 = .infinite := by decide +kernel
example : ofRatio (2 ^ 1024 - 2 ^ 970 - 1) 1 = .finite (2 ^ 53 - 1) 971 := by decide +kernel
example : ofRatio 1 (2 ^ 1075) = zero := by decide +kernel

end Magnitude

namespace Double

/-- The value zero. -/
def zero : Double := .positive .zero

/-- The number to stand for any other is zero. -/
instance : Inhabited Double := ⟨zero⟩

/-- The double nearest to a quotient, ties to the even mantissa. -/
def ofRatio (numerator denominator : Nat) : Double := .positive (.ofRatio numerator denominator)

end Double

/-- The natural number that decimal digits spell; characters outside `0` to `9` do not occur. -/
def digitsValue (digits : List Char) : Nat :=
  digits.foldl (fun value digit => 10 * value + (digit.toNat - '0'.toNat)) 0

/-- The double nearest to the number that a text spells in decimal: digits, with one dot before,
among or behind them, or with none. No other text is read; signs and exponents are not known. -/
def Double.ofDecimal? (text : List Char) : Option Double :=
  let whole := text.takeWhile (· != '.')
  let fraction := (text.dropWhile (· != '.')).drop 1
  let digits := whole ++ fraction
  if !digits.isEmpty && digits.all Char.isDigit then
    some (ofRatio (digitsValue digits) (Nat.pow 10 fraction.length))
  else none

example : Double.ofDecimal? ['.', '5'] = some (.ofRatio 5 10) := by decide +kernel
example : Double.ofDecimal? ['.'] = none ∧ Double.ofDecimal? [] = none := by decide +kernel

/-- The front part of a text up to its second dot, or all of it. -/
def beforeSecondDot (text : List Char) : List Char :=
  match text.dropWhile (· != '.') with
  | [] => text
  | dot :: rest => text.takeWhile (· != '.') ++ dot :: rest.takeWhile (· != '.')

/-- The value of a run of digits and dots: the text before a second dot, read as a decimal, or
zero if it cannot be read. -/
def Double.ofDecimalRun (run : List Char) : Double :=
  (ofDecimal? (beforeSecondDot run)).getD zero

/-- The value of a run of binary digits, rounded after each digit. -/
def Double.ofBinaryDigits (digits : List Char) : Double :=
  .positive (digits.foldl (fun value digit => value.appendBit (digit == '1')) .zero)

end Oreo
