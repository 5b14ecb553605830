import StackCalc.Decimal.Layout

/-
  This file defines single numbers: exact integers and
  doubles. An integer meets a double as a double, except
  in comparisons, which are exact.

  Key definitions include:
    * `StackCalc.Number`
    * `StackCalc.Number.toFloat?`
    * `StackCalc.Number.compare?`
    * `StackCalc.Number.messageText?`
-/

------------------------------------------------------------
-- Numbers
------------------------------------------------------------

namespace StackCalc

/- An integer of any size or a double. -/
inductive Number where
  | integer (z : Int)
  | float (x : Float)

namespace Number

/- The double nearest to a number within their range. -/
def toFloat? : Number → Option Float
  | integer z => floatOfInt? z
  | float x => some x

/- Whether a number is zero, of either sign. -/
def isZero : Number → Bool
  | integer z => z = 0
  | float x => x == 0.0

end Number

namespace Decimal

/- How a message writes doubles. -/
def messageFormat : FloatFormat where
  fullMantissa := false
  infinity := "inf".toList
  notANumber := "nan".toList

end Decimal

namespace Number

/- A number in a message. -/
def messageText? : Number → Option Text
  | integer z => Decimal.intText? z
  | float x =>
      some (Decimal.floatText Decimal.messageFormat x)

end Number

end StackCalc

------------------------------------------------------------
-- Comparison
------------------------------------------------------------

namespace StackCalc

namespace Number

/- Compare an integer with the exact value of a double. -/
def compareIntFloat
    (z : Int)
    (x : Float) : Option Ordering :=
  if x.isNaN then none
  else if x.isInf then
    some (if isNegativeFloat x then .gt else .lt)
  else
    let r := Ratio.ofFloat x
    let num : Int :=
      if isNegativeFloat x then -r.num else r.num
    some (compare (z * r.den) num)

/- Compare two doubles. -/
def compareFloats
    (x y : Float) : Option Ordering :=
  if x < y then some .lt
  else if y < x then some .gt
  else if x == y then some .eq
  else none

/- Compare two numbers; a NaN compares with nothing. -/
def compare? : Number → Number → Option Ordering
  | integer a, integer b => some (compare a b)
  | integer a, float y => compareIntFloat a y
  | float x, integer b =>
      (compareIntFloat b x).map Ordering.swap
  | float x, float y => compareFloats x y

/- Whether two numbers have one value. -/
def equals
    (a b : Number) : Bool :=
  compare? a b = some .eq

end Number

end StackCalc
