import StackCalc.Text.Basic

/-
  This file writes and reads integers in decimal. Numbers
  of more than `maxDigits` digits have no decimal text, in
  either direction.

  Key definitions include:
    * `StackCalc.Decimal.maxDigits`
    * `StackCalc.Decimal.natText`
    * `StackCalc.Decimal.intText`
    * `StackCalc.Decimal.intText?`
    * `StackCalc.Decimal.natValue`
    * `StackCalc.Decimal.natValue?`
-/

------------------------------------------------------------
-- Writing Integers
------------------------------------------------------------

namespace StackCalc

namespace Decimal

/- The largest number of digits of a decimal integer. -/
def maxDigits : Nat :=
  4300

/- The decimal digits of a natural number. -/
def natText (n : Nat) : Text :=
  Nat.toDigits 10 n

/- The decimal text of an integer, of any length. -/
def intText (z : Int) : Text :=
  if z < 0 then '-' :: natText z.natAbs
  else natText z.natAbs

/- Whether an integer has at most `maxDigits` digits. -/
def isShort (z : Int) : Bool :=
  z.natAbs < Nat.pow 10 maxDigits

/- The decimal text of an integer that is short enough. -/
def intText? (z : Int) : Option Text :=
  if isShort z then some (intText z) else none

end Decimal

end StackCalc

------------------------------------------------------------
-- Reading Integers
------------------------------------------------------------

namespace StackCalc

namespace Decimal

/- The number that a run of decimal digits denotes. -/
def natValue (ds : Text) : Nat :=
  Nat.ofDigitChars 10 ds 0

/-
  The number that a run of decimal digits denotes, unless
  it has too many digits. Leading zeros count.
-/
def natValue? (ds : Text) : Option Nat :=
  if ds.length ≤ maxDigits then some (natValue ds)
  else none

/- A written natural number reads back. -/
theorem natValue_natText
    (n : Nat) :
    natValue (natText n) = n :=
  Nat.ofDigitChars_ten_toDigits

end Decimal

end StackCalc
