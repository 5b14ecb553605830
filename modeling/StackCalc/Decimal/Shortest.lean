import StackCalc.Decimal.Integer
import StackCalc.Decimal.Ratio

/-
  This file finds the shortest decimal of a double: of the
  decimals that read back as the double, one with the
  fewest digits, and of those the nearest to its value.

  Key definitions include:
    * `StackCalc.Decimal.Scientific`
    * `StackCalc.Decimal.Scientific.toFloat`
    * `StackCalc.Decimal.pointOf`
    * `StackCalc.Decimal.neighbours`
    * `StackCalc.Decimal.shortest`
-/

------------------------------------------------------------
-- Decimals
------------------------------------------------------------

namespace StackCalc

namespace Decimal

/- The decimal `mantissa * 10 ^ exponent`. -/
structure Scientific where
  mantissa : Nat
  exponent : Int
deriving Repr, DecidableEq

namespace Scientific

/- The double nearest to a decimal. -/
def toFloat (d : Scientific) : Float :=
  Float.ofScientific
    d.mantissa
    (d.exponent < 0)
    d.exponent.natAbs

end Scientific

end Decimal

end StackCalc

------------------------------------------------------------
-- Decimal Grids
------------------------------------------------------------

namespace StackCalc

namespace Decimal

/-
  The least exponent `k` for which a positive fraction is
  below `10 ^ k`.
-/
def pointOf (r : Ratio) : Int :=
  if r.den ≤ r.num then
    (natText (r.num / r.den)).length
  else
    1 - ((natText ((r.den - 1) / r.num)).length : Int)

/-
  The decimals with `n` digits next to a fraction, nearest
  first. Of two that are equally near, the one with the
  even last digit comes first.
-/
def neighbours
    (r : Ratio)
    (n : Nat) :
    List Scientific :=
  let exponent := pointOf r - n
  let num := r.num * Nat.pow 10 (-exponent).toNat
  let den := r.den * Nat.pow 10 exponent.toNat
  let below := num / den
  let twice := 2 * (num % den)
  let low : Scientific := ⟨below, exponent⟩
  let high : Scientific := ⟨below + 1, exponent⟩
  if twice < den ∨ (twice = den ∧ below % 2 = 0) then
    [low, high]
  else
    [high, low]

end Decimal

end StackCalc

------------------------------------------------------------
-- The Shortest Decimal
------------------------------------------------------------

namespace StackCalc

namespace Decimal

/- Whether a decimal reads back as the magnitude of `x`. -/
def readsBack
    (x : Float)
    (d : Scientific) : Bool :=
  d.toFloat.toBits = x.abs.toBits

/-
  The decimal of the same value as a fraction over a power
  of two.
-/
def exactly (r : Ratio) : Scientific :=
  ⟨r.num * Nat.pow 5 r.den.log2, -(r.den.log2 : Int)⟩

/-
  The shortest decimal of the magnitude of a finite double
  other than zero. Seventeen digits always suffice, so the
  exact value is never called for.
-/
def shortest (x : Float) : Scientific :=
  let r := Ratio.ofFloat x
  let found :=
    (List.range 17).findSome? fun i =>
      (neighbours r (i + 1)).find? (readsBack x)
  found.getD (exactly r)

/- The decimal that is found reads back. -/
theorem readsBack_of_findSome?
    {x : Float}
    {r : Ratio}
    {ns : List Nat}
    {d : Scientific}
    (h :
      ns.findSome? (fun i =>
        (neighbours r (i + 1)).find? (readsBack x)) =
        some d) :
    readsBack x d = true := by
  obtain ⟨i, _, hi⟩ := List.exists_of_findSome?_eq_some h
  exact List.find?_some hi

end Decimal

end StackCalc
