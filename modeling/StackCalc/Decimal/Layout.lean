import StackCalc.Decimal.Shortest

/-
  This file writes doubles. The digits are those of the
  shortest decimal; a format says how they are laid out
  and how the values without digits are spelled.

  Key definitions include:
    * `StackCalc.Decimal.FloatFormat`
    * `StackCalc.Decimal.Digits`
    * `StackCalc.Decimal.digitsOf`
    * `StackCalc.Decimal.floatText`
-/

------------------------------------------------------------
-- Formats
------------------------------------------------------------

namespace StackCalc

namespace Decimal

/-
  What two ways of writing doubles may differ in: whether
  a single digit before an exponent is followed by `.0`,
  and the names of the values without digits.
-/
structure FloatFormat where
  fullMantissa : Bool
  infinity : Text
  notANumber : Text

/-
  Significant digits without zeros at the end, the first
  of which stands `point` places before the decimal point.
-/
structure Digits where
  digits : Text
  point : Int
deriving Repr, DecidableEq

/- The digits of a decimal. -/
def digitsOf (d : Scientific) : Digits :=
  let ds := natText d.mantissa
  { digits :=
      (ds.reverse.dropWhile (· = '0')).reverse
    point := d.exponent + ds.length }

end Decimal

end StackCalc

------------------------------------------------------------
-- Layout
------------------------------------------------------------

namespace StackCalc

namespace Decimal

/- A run of zeros. -/
def zeros (n : Int) : Text :=
  List.replicate n.toNat '0'

/-
  Digits around a decimal point, with a digit on each of
  its sides.
-/
def positional (d : Digits) : Text :=
  if d.point ≤ 0 then
    "0.".toList ++ zeros (-d.point) ++ d.digits
  else if d.point < d.digits.length then
    d.digits.take d.point.toNat ++
      '.' :: d.digits.drop d.point.toNat
  else
    d.digits ++ zeros (d.point - d.digits.length) ++
      ".0".toList

/- A signed exponent of at least two digits. -/
def exponentText (e : Int) : Text :=
  let ds := natText e.natAbs
  (if e < 0 then '-' else '+') ::
    (zeros (2 - ds.length) ++ ds)

/- One digit, the further digits, and the exponent. -/
def exponential
    (fmt : FloatFormat)
    (d : Digits) : Text :=
  let more := d.digits.drop 1
  let fraction :=
    if more.isEmpty then
      if fmt.fullMantissa then ".0".toList else []
    else '.' :: more
  d.digits.take 1 ++ fraction ++
    'e' :: exponentText (d.point - 1)

/-
  Digits are written positionally when the first of them
  stands from the fourth place after the decimal point up
  to the sixteenth place before it.
-/
def layout
    (fmt : FloatFormat)
    (d : Digits) : Text :=
  if -4 < d.point ∧ d.point ≤ 16 then positional d
  else exponential fmt d

end Decimal

end StackCalc

------------------------------------------------------------
-- Doubles
------------------------------------------------------------

namespace StackCalc

namespace Decimal

/- The magnitude of a double that is a number. -/
def magnitudeText
    (fmt : FloatFormat)
    (x : Float) : Text :=
  if x.isInf then fmt.infinity
  else if x == 0.0 then "0.0".toList
  else layout fmt (digitsOf (shortest x))

/- The text of a double. -/
def floatText
    (fmt : FloatFormat)
    (x : Float) : Text :=
  if x.isNaN then fmt.notANumber
  else if isNegativeFloat x then
    '-' :: magnitudeText fmt x
  else magnitudeText fmt x

end Decimal

end StackCalc
