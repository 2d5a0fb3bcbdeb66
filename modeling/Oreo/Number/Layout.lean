import Oreo.Number.Shortest

/-!
# Writing doubles

A double is written with the fewest digits that identify it. How the digits are laid out is
one record, `NumberStyle`; the two places where numbers are written each have one:
`NumberStyle.message` for texts that people read and `NumberStyle.data` for structured output.
-/

namespace Oreo

/-- The decisions of a number format. -/
structure NumberStyle where
  /-- The choice between two equally near decimals. -/
  tie : Tie
  /-- Whether a value whose first digit has this power of ten is written without an exponent. -/
  isPositional : Int → Bool
  /-- Whether a whole number is written with `.0`. -/
  pointZero : Bool
  /-- The text of infinity. -/
  infinity : String
  /-- The text of infinity behind a minus sign. -/
  negativeInfinity : String
  /-- The text of the undefined value. -/
  undefined : String

namespace NumberStyle

/-- Numbers in messages: always without an exponent, whole numbers without a point. -/
def message : NumberStyle where
  tie := .up
  isPositional _ := true
  pointZero := false
  infinity := "inf"
  negativeInfinity := "-inf"
  undefined := "NaN"

/-- Numbers in structured output: with a point, and from `10 ^ -5` up to and without
`10 ^ 16` without an exponent. What is not finite cannot be written and becomes `null`. -/
def data : NumberStyle where
  tie := .toEven
  isPositional power := decide (-5 ≤ power ∧ power < 16)
  pointZero := true
  infinity := "null"
  negativeInfinity := "null"
  undefined := "null"

end NumberStyle

namespace Decimal

/-- The digits with the point set among them and zeros filled in. -/
def positional (decimal : Decimal) (pointZero : Bool) : List Char :=
  let count : Int := decimal.digits.length
  if decimal.point ≤ 0 then
    '0' :: '.' :: (List.replicate (-decimal.point).toNat '0' ++ decimal.digits)
  else if decimal.point < count then
    decimal.digits.take decimal.point.toNat ++ '.' :: decimal.digits.drop decimal.point.toNat
  else
    decimal.digits ++ List.replicate (decimal.point - count).toNat '0' ++
      if pointZero then ['.', '0'] else []

/-- One digit, the others behind a point, and the signed power of ten of the first. -/
def scientific (decimal : Decimal) : List Char :=
  let power := decimal.point - 1
  let fraction :=
    match decimal.digits.drop 1 with
    | [] => []
    | others => '.' :: others
  decimal.digits.take 1 ++ fraction ++
    'e' :: (if power < 0 then '-' else '+') :: Nat.toDigits 10 power.natAbs

end Decimal

/-- The text of a magnitude in a number format. -/
def Magnitude.write (style : NumberStyle) : Magnitude → String
  | .infinite => style.infinity
  | .finite 0 _ => if style.pointZero then "0.0" else "0"
  | .finite mantissa power =>
    let decimal := shortest style.tie mantissa power
    String.ofList <|
      if style.isPositional (decimal.point - 1) then decimal.positional style.pointZero
      else decimal.scientific

/-- The text of a double in a number format. -/
def Double.write (style : NumberStyle) : Double → String
  | .positive size => size.write style
  | .negative .infinite => style.negativeInfinity
  | .negative size => "-" ++ size.write style
  | .nan => style.undefined

example : (Double.ofRatio 1 10).write .data = "0.1" := by decide +kernel
example : (Double.ofRatio 100 1).write .message = "100" := by decide +kernel
example : (Double.ofRatio (10 ^ 16) 1).write .data = "1e+16" := by decide +kernel
example : (Double.ofRatio 1 (2 ^ 1074)).write .data = "5e-324" := by decide +kernel
example : (Double.ofRatio 1 (2 ^ 25)).write .data = "2.9802322387695312e-8" := by decide +kernel

end Oreo
