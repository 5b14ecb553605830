import StackCalc.Arithmetic.Integer

/-
  This file defines arithmetic on single numbers. Integers
  stay exact. As soon as a double takes part both operands
  are doubles, and an integer beyond their range has no
  result.

  Key definitions include:
    * `StackCalc.Number.arith`
    * `StackCalc.Number.quotient`
    * `StackCalc.Number.remainder`
    * `StackCalc.Number.power`
-/

------------------------------------------------------------
-- Sums And Products
------------------------------------------------------------

namespace StackCalc

namespace Number

/- Apply an operation on doubles to two numbers. -/
def onFloats
    (f : Float → Float → Float)
    (a b : Number) :
    Except ArithmeticFault Number :=
  match a.toFloat?, b.toFloat? with
  | some x, some y => .ok (.float (f x y))
  | _, _ => .error .beyondRange

/-
  Apply an operation that is given on integers and on
  doubles.
-/
def arith
    (f : Int → Int → Int)
    (g : Float → Float → Float) :
    Number → Number → Except ArithmeticFault Number
  | integer a, integer b => .ok (.integer (f a b))
  | a, b => onFloats g a b

end Number

end StackCalc

------------------------------------------------------------
-- Division
------------------------------------------------------------

namespace StackCalc

namespace Number

/- The number that is none. -/
def nan : Number :=
  .float (0.0 / 0.0)

/- Whether a number has a negative sign. -/
def isNegative : Number → Bool
  | integer z => z < 0
  | float x => isNegativeFloat x

/-
  A number divided by zero as a double: infinite with the
  sign of the quotient, or no number.
-/
def overZero
    (a b : Number) :
    Except ArithmeticFault Number :=
  if a.isZero then .ok nan
  else
    match a.toFloat? with
    | none => .error .beyondRange
    | some x =>
        if x.isNaN then .ok nan
        else
          .ok (.float (signedFloat
            (a.isNegative != b.isNegative) (1.0 / 0.0)))

/- A quotient; that of integers is rounded down. -/
def quotient : Number → Number → Except ArithmeticFault Number
  | integer a, integer b =>
      if b = 0 then .error .dividedByZero
      else .ok (.integer (a.fdiv b))
  | a, b =>
      if b.isZero then overZero a b
      else onFloats (· / ·) a b

/-
  What is left of a finite double when another has been
  taken from it as often as possible toward zero. This is
  always a double.
-/
def truncatedRest (x y : Float) : Float :=
  let a := Ratio.ofFloat x
  let b := Ratio.ofFloat y
  signedFloat (isNegativeFloat x)
    (Ratio.toFloat
      ⟨(a.num * b.den) % (b.num * a.den), a.den * b.den⟩)

/-
  The remainder of doubles, which has the sign of the
  divisor.
-/
def floatRemainder (x y : Float) : Float :=
  if x.isNaN || y.isNaN || x.isInf then 0.0 / 0.0
  else
    let r := if y.isInf then x else truncatedRest x y
    if r == 0.0 then signedFloat (isNegativeFloat y) 0.0
    else if isNegativeFloat r != isNegativeFloat y then r + y
    else r

/- A remainder, which has the sign of the divisor. -/
def remainder :
    Number → Number → Except ArithmeticFault Number
  | integer a, integer b =>
      if b = 0 then .error .dividedByZero
      else .ok (.integer (a.fmod b))
  | a, b =>
      if b.isZero then .ok nan
      else onFloats floatRemainder a b

end Number

end StackCalc

------------------------------------------------------------
-- Powers
------------------------------------------------------------

namespace StackCalc

namespace Number

/- Whether a finite double is a whole number. -/
def isWhole (x : Float) : Bool :=
  let r := Ratio.ofFloat x
  r.num % r.den = 0

/- Whether a finite double is an odd whole number. -/
def isOdd (x : Float) : Bool :=
  let r := Ratio.ofFloat x
  r.num % r.den = 0 && r.num / r.den % 2 = 1

/-
  What a power of doubles comes to: a double, nothing in
  the real numbers, or nothing within range.
-/
inductive PowerResult where
  | double (x : Float)
  | unreal
  | outOfRange

/- The power of a double to an infinite exponent. -/
def powerToInfinity (x y : Float) : Float :=
  if x.abs == 1.0 then 1.0
  else if isNegativeFloat y == (x.abs < 1.0) then 1.0 / 0.0
  else 0.0

/- The power of an infinite double. -/
def powerOfInfinity (x y : Float) : Float :=
  let size := if isNegativeFloat y then 0.0 else 1.0 / 0.0
  signedFloat (isNegativeFloat x && isOdd y) size

/- The power of a double to a finite exponent. -/
def powerOfFinite (x y : Float) : PowerResult :=
  if x == 0.0 then
    if isNegativeFloat y then .outOfRange
    else if isOdd y then .double x
    else .double 0.0
  else
    let size := x.abs.pow y
    if x < 0.0 && !isWhole y then
      if size.isInf then .outOfRange else .unreal
    else if size.isInf then .outOfRange
    else .double (signedFloat (x < 0.0 && isOdd y) size)

/- The power of doubles. -/
def floatPower (x y : Float) : PowerResult :=
  if y == 0.0 then .double 1.0
  else if x.isNaN then .double x
  else if y.isNaN then
    if x == 1.0 then .double 1.0 else .double y
  else if y.isInf then .double (powerToInfinity x y)
  else if x.isInf then .double (powerOfInfinity x y)
  else powerOfFinite x y

/- A power of two numbers as doubles. -/
def powerOnFloats
    (a b : Number) :
    Except ArithmeticFault Number :=
  match a.toFloat?, b.toFloat? with
  | some x, some y =>
      match floatPower x y with
      | .double z => .ok (.float z)
      | .unreal => .error (.noRealResult a b)
      | .outOfRange => .error .beyondRange
  | _, _ => .error .beyondRange

/-
  A power. An integer to a negative exponent is a double,
  and for zero there is none.
-/
def power : Number → Number → Except ArithmeticFault Number
  | integer a, integer b =>
      if 0 ≤ b then .ok (.integer (intPower a b.toNat))
      else if a = 0 then .error .dividedByZero
      else powerOnFloats (.integer a) (.integer b)
  | a, b => powerOnFloats a b

end Number

end StackCalc
