import StackCalc.Numbers.Entries
import StackCalc.Text.Basic

/-
  This file defines the values that stand on the stack.

  A string is held with its quotes. A deferred value is the
  name of an operator or the source of a block that was
  pushed instead of carried out; it counts as a string.

  Key definitions include:
    * `StackCalc.Kind`
    * `StackCalc.Value`
    * `StackCalc.Value.kind`
    * `StackCalc.Text.toggleQuotes`
    * `StackCalc.Value.toggleQuotes`
-/

------------------------------------------------------------
-- Kinds
------------------------------------------------------------

namespace StackCalc

/- The kinds of values that operators tell apart. -/
inductive Kind where
  | integer
  | float
  | boolean
  | string
  | vector
  | matrix
deriving Repr, DecidableEq

namespace Kind

/- The name of a kind in messages. -/
def name : Kind → Text
  | integer => "integer".toList
  | float => "float".toList
  | boolean => "boolean".toList
  | string => "string".toList
  | vector => "vector".toList
  | matrix => "matrix".toList

end Kind

end StackCalc

------------------------------------------------------------
-- Values
------------------------------------------------------------

namespace StackCalc

/- A value of the calculator. -/
inductive Value where
  | integer (z : Int)
  | float (x : Float)
  | boolean (b : Bool)
  | string (t : Text)
  | deferred (t : Text)
  | vector (v : NumVector)
  | matrix (m : NumMatrix)

namespace Value

/- The kind of a value. -/
def kind : Value → Kind
  | integer _ => .integer
  | float _ => .float
  | boolean _ => .boolean
  | string _ => .string
  | deferred _ => .string
  | vector _ => .vector
  | matrix _ => .matrix

end Value

end StackCalc

------------------------------------------------------------
-- Quotes
------------------------------------------------------------

namespace StackCalc

namespace Text

/- Whether a text stands between double quotes. -/
def isQuoted (t : Text) : Bool :=
  isWrapped '"' '"' t

/- A text between double quotes. -/
def inQuotes (t : Text) : Text :=
  '"' :: (t ++ ['"'])

/- Take one layer of quotes off, or put one on. -/
def toggleQuotes (t : Text) : Text :=
  if isQuoted t then unwrap t else inQuotes t

/- A text in quotes is quoted. -/
@[simp] theorem isQuoted_inQuotes
    (t : Text) :
    isQuoted (inQuotes t) = true :=
  isWrapped_wrap '"' '"' t

/- Toggling takes off the quotes that were put on. -/
@[simp] theorem toggleQuotes_inQuotes
    (t : Text) :
    toggleQuotes (inQuotes t) = t := by
  rw [toggleQuotes, isQuoted_inQuotes]
  exact unwrap_wrap '"' '"' t

end Text

namespace Value

/- Toggle the quotes of a string; keep other values. -/
def toggleQuotes : Value → Value
  | string t => string (Text.toggleQuotes t)
  | deferred t => string (Text.toggleQuotes t)
  | v => v

end Value

end StackCalc
