import StackCalc.Numbers.Number
import StackCalc.Text.Quoted
import StackCalc.Value.Basic

/-
  This file writes values: `render` as the language itself
  spells them, and `inspect` as diagnostics list them.

  Key definitions include:
    * `StackCalc.Value.floatFormat`
    * `StackCalc.Value.render`
    * `StackCalc.Value.inspect`
-/

------------------------------------------------------------
-- Rendering
------------------------------------------------------------

namespace StackCalc

/- Items between square brackets. -/
def bracketed (items : List Text) : Text :=
  '[' :: (Text.joinWith ", ".toList items ++ [']'])

namespace Value

/-
  A rendered double always has a decimal point, which is
  what tells it from an integer.
-/
def floatFormat : Decimal.FloatFormat where
  fullMantissa := true
  infinity := "Infinity".toList
  notANumber := "NaN".toList

/- A double as the language spells it. -/
def renderFloat (x : Float) : Text :=
  Decimal.floatText floatFormat x

/- A truth value as the language spells it. -/
def renderBool (b : Bool) : Text :=
  if b then "true".toList else "false".toList

/- A sequence of numbers as the language spells it. -/
def renderVector : NumVector → Text
  | .ints xs => bracketed (xs.map Decimal.intText)
  | .floats xs => bracketed (xs.map renderFloat)

/- A rectangle of numbers as the language spells it. -/
def renderMatrix : NumMatrix → Text
  | .ints g =>
      bracketed (g.rows.map fun row =>
        bracketed (row.map Decimal.intText))
  | .floats g =>
      bracketed (g.rows.map fun row =>
        bracketed (row.map renderFloat))

/-
  A value as the language spells it. An integer with too
  many digits has no spelling.
-/
def render : Value → Option Text
  | integer z => Decimal.intText? z
  | float x => some (renderFloat x)
  | boolean b => some (renderBool b)
  | string t => some t
  | deferred t => some t
  | vector v => some (renderVector v)
  | matrix m => some (renderMatrix m)

end Value

end StackCalc

------------------------------------------------------------
-- Inspection
------------------------------------------------------------

namespace StackCalc

namespace Value

/- A value in a diagnostic list; strings are quoted. -/
def inspect : Value → Option Text
  | integer z => Decimal.intText? z
  | float x =>
      some (Decimal.floatText Decimal.messageFormat x)
  | boolean b =>
      some (if b then "True".toList else "False".toList)
  | string t => some (Text.quoted t)
  | deferred t =>
      some ("DeferredToken(".toList ++ Text.quoted t ++
        [')'])
  | vector v => some (renderVector v)
  | matrix m => some (renderMatrix m)

end Value

end StackCalc
