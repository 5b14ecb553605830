import StackCalc.Numbers.Number
import StackCalc.Value.Basic

/-
  This file defines what can go wrong, by cause. Wording is
  left to `StackCalc.Fault.Message`.

  Key definitions include:
    * `StackCalc.Malformation`
    * `StackCalc.DimensionFault`
    * `StackCalc.TypeFault`
    * `StackCalc.StackFault`
    * `StackCalc.ArithmeticFault`
    * `StackCalc.Fault`
    * `StackCalc.FaultKind`
    * `StackCalc.Stop`
-/

------------------------------------------------------------
-- Causes
------------------------------------------------------------

namespace StackCalc

/- Why a text is neither a literal nor a block. -/
inductive Malformation where
  | emptyLiteral
  | trailingText
  | missingLiteral
  | badNumber
  | missingWord
  | unknownWord (word : Text)
  | openString
  | openArray
  | deepArray
  | mixedRows
  | nonNumber
  | beyondFloat
  | beyondStorage (z : Int)
  | unbracedBlock
  | undividedBlock
  | badCount (count : Text)
  | strayPlaceholder (index count : Nat)
deriving DecidableEq

/- The height and the width of a matrix. -/
structure Shape where
  height : Nat
  width : Nat
deriving Repr, DecidableEq

/- Why the shapes of arrays do not go together. -/
inductive DimensionFault where
  | raggedRows (lengths : List Nat)
  | vectorRank (rank : Nat)
  | matrixRank (rank : Nat)
  | unequalLengths (op : Text) (left right : Nat)
  | crossLengths (op : Text) (left right : Nat)
  | unequalShapes (op : Text) (left right : Shape)
  | innerShapes (op : Text) (left right : Shape)
  | innerLength (op : Text) (left : Shape) (right : Nat)
  | notSquare (op : Text) (shape : Shape)
deriving DecidableEq

/-
  Why the kinds of operands do not suit an operator. An
  operand that is too long for the message about it is
  `unspeakable`.
-/
inductive TypeFault where
  | undefined (op : Text) (left right : Kind)
  | needsBoolean (op : Text) (got : Kind)
  | needsInteger (op : Text) (got : Kind)
  | needsMatrix (op : Text) (got : Kind)
  | needsWindow (op : Text) (got : Kind)
  | needsCondition (op : Text) (got : Kind)
  | unspeakable (op : Text)
deriving DecidableEq

/- Why a stack cannot give what it is asked for. -/
inductive StackFault where
  | tooShort (needed : Int) (held : Nat)
  | negativeCount (count : Int)
  | emptyWindow (size : Int)
deriving DecidableEq

/-
  Why an operation has no result. A result that no double,
  index or array could hold is `beyondRange`.
-/
inductive ArithmeticFault where
  | dividedByZero
  | noRealResult (base exponent : Number)
  | incomparable (left right : Number)
  | negativeRepetition (count : Int)
  | overflow (z : Int)
  | singular
  | beyondRange

end StackCalc

------------------------------------------------------------
-- Faults
------------------------------------------------------------

namespace StackCalc

/-
  A fault of a program. A malformed text comes with the
  position of the complaint where there is one.
-/
inductive Fault where
  | malformed
      (cause : Malformation)
      (text : Text)
      (pos : Option Nat)
  | dimension (cause : DimensionFault)
  | typing (cause : TypeFault)
  | corruption (cause : StackFault) (token : Text)
  | arithmetic
      (cause : ArithmeticFault)
      (token : Option Text)
  | tooDeep

/-
  Why a computation stopped short: for a fault, for a
  number with too many digits to be read or written, or
  because it was nested too deeply to go on.
-/
inductive Stop where
  | fault (f : Fault)
  | tooManyDigits
  | outOfDepth

/- The kinds of faults that reports tell apart. -/
inductive FaultKind where
  | runtime
  | malformed
  | dimension
  | typing
  | corruption
  | arithmetic
  | tooDeep
deriving Repr, DecidableEq

namespace Fault

/- The kind of a fault. -/
def kind : Fault → FaultKind
  | malformed .. => .malformed
  | dimension _ => .dimension
  | typing _ => .typing
  | corruption .. => .corruption
  | arithmetic .. => .arithmetic
  | tooDeep => .tooDeep

end Fault

namespace DimensionFault

/- The operator at fault, if there is one. -/
def token : DimensionFault → Option Text
  | raggedRows _ => none
  | vectorRank _ => none
  | matrixRank _ => none
  | unequalLengths op _ _ => some op
  | crossLengths op _ _ => some op
  | unequalShapes op _ _ => some op
  | innerShapes op _ _ => some op
  | innerLength op _ _ => some op
  | notSquare op _ => some op

end DimensionFault

namespace TypeFault

/- The operator at fault. -/
def token : TypeFault → Text
  | undefined op _ _ => op
  | needsBoolean op _ => op
  | needsInteger op _ => op
  | needsMatrix op _ => op
  | needsWindow op _ => op
  | needsCondition op _ => op
  | unspeakable op => op

end TypeFault

namespace Fault

/- The token at fault, if there is one. -/
def token : Fault → Option Text
  | malformed _ text _ => some text
  | dimension cause => cause.token
  | typing cause => some cause.token
  | corruption _ token => some token
  | arithmetic _ token => token
  | tooDeep => none

/- The position of the complaint, if there is one. -/
def pos : Fault → Option Nat
  | malformed _ _ pos => pos
  | _ => none

end Fault

end StackCalc
