/-
  This file relates doubles to exact fractions: the value
  of a finite double is a fraction, and every fraction has
  a nearest double.

  Key definitions include:
    * `StackCalc.Ratio`
    * `StackCalc.Ratio.ofFloat`
    * `StackCalc.Ratio.toFloat`
    * `StackCalc.isNegativeFloat`
-/

------------------------------------------------------------
-- Fractions
------------------------------------------------------------

namespace StackCalc

/- A fraction of natural numbers. -/
structure Ratio where
  num : Nat
  den : Nat
deriving Repr, DecidableEq

namespace Ratio

/-
  The magnitude of a finite double. Its bits hold a field
  of eleven bits over a fraction of fifty-two; a field of
  zero has the scale of the field one and no leading bit.
-/
def ofFloat (x : Float) : Ratio :=
  let bits := x.toBits.toNat
  let field := bits / Nat.pow 2 52 % Nat.pow 2 11
  let fraction := bits % Nat.pow 2 52
  if field = 0 then
    ⟨fraction, Nat.pow 2 1074⟩
  else if field < 1075 then
    ⟨Nat.pow 2 52 + fraction, Nat.pow 2 (1075 - field)⟩
  else
    ⟨(Nat.pow 2 52 + fraction) *
      Nat.pow 2 (field - 1075), 1⟩

/-
  The double nearest to a fraction. The quotient is taken
  to more bits than a double holds and its last bit is set
  when it is not exact, which leaves the rounding to be
  done once, on a decimal of the same value.
-/
def toFloat (r : Ratio) : Float :=
  let scale := r.den.log2 + 64
  let scaled := r.num * Nat.pow 2 scale
  let quotient := scaled / r.den
  let tail := if scaled % r.den = 0 then 0 else 1
  Float.ofScientific
    ((2 * quotient + tail) * Nat.pow 5 (scale + 1))
    true
    (scale + 1)

end Ratio

end StackCalc

------------------------------------------------------------
-- Signs And Integers
------------------------------------------------------------

namespace StackCalc

/- Whether the sign bit of a double is set. -/
def isNegativeFloat (x : Float) : Bool :=
  Nat.pow 2 63 ≤ x.toBits.toNat

/- A magnitude with the sign `negative`. -/
def signedFloat
    (negative : Bool)
    (x : Float) : Float :=
  if negative then -x else x

/-
  The double nearest to an integer, if the integer lies
  within the range of the doubles.
-/
def floatOfInt? (z : Int) : Option Float :=
  let x := Float.ofInt z
  if x.isInf then none else some x

end StackCalc
