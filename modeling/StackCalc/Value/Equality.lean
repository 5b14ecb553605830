import StackCalc.Numbers.Number
import StackCalc.Value.Basic

/-
  This file compares values as they stand, quotes and all.
  Here a truth value counts as the number one or zero, and
  a deferred value as the string with its text.

  Key definitions include:
    * `StackCalc.Value.number?`
    * `StackCalc.Value.coincides`
-/

------------------------------------------------------------
-- Coincidence
------------------------------------------------------------

namespace StackCalc

namespace Value

/- The number that a value counts as. -/
def number? : Value → Option Number
  | integer z => some (.integer z)
  | float x => some (.float x)
  | boolean b => some (.integer (if b then 1 else 0))
  | _ => none

/- The text that a value counts as. -/
def text? : Value → Option Text
  | string t => some t
  | deferred t => some t
  | _ => none

/- Whether two values count as the same. -/
def coincides : Value → Value → Bool
  | vector a, vector b => a.agrees b
  | matrix a, matrix b => a.agrees b
  | a, b =>
      match a.number?, b.number?, a.text?, b.text? with
      | some m, some n, _, _ => m.equals n
      | _, _, some s, some t => s = t
      | _, _, _, _ => false

end Value

end StackCalc
