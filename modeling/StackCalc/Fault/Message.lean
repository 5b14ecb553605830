import StackCalc.Fault.Basic
import StackCalc.Text.Quoted

/-
  This file words the faults.

  Key definitions include:
    * `StackCalc.FaultKind.name`
    * `StackCalc.FaultKind.ancestry`
    * `StackCalc.Fault.message?`
    * `StackCalc.FaultKind.describe`
    * `StackCalc.Fault.text?`
-/

------------------------------------------------------------
-- Names
------------------------------------------------------------

namespace StackCalc

namespace FaultKind

/- The name of a kind in reports. -/
def name : FaultKind → Text
  | runtime => "StackoRuntimeError".toList
  | malformed => "MalformedLiteralError".toList
  | dimension => "DimensionMismatchError".toList
  | typing => "TypeMismatchError".toList
  | corruption => "StackCorruptionError".toList
  | arithmetic => "ArithmeticFaultError".toList
  | tooDeep => "RecursionDepthError".toList

/- All kinds. -/
def all : List FaultKind :=
  [ runtime, malformed, dimension, typing, corruption,
    arithmetic, tooDeep ]

/- The kind of a name. -/
def ofName? (t : Text) : Option FaultKind :=
  all.find? fun k => k.name = t

/- The name of the family that all faults belong to. -/
def root : Text :=
  "StackoError".toList

/-
  The names of a kind and of the families it belongs to,
  the narrowest first.
-/
def ancestry : FaultKind → List Text
  | runtime => [runtime.name, root]
  | k => [k.name, runtime.name, root]

end FaultKind

end StackCalc

------------------------------------------------------------
-- Messages
------------------------------------------------------------

namespace StackCalc

open Decimal (natText intText)

namespace Malformation

/- What is wrong with the text. -/
def message : Malformation → Text
  | emptyLiteral => "Empty literal".toList
  | trailingText => "Unexpected trailing text".toList
  | missingLiteral => "Expected a literal".toList
  | badNumber => "Invalid numeric literal".toList
  | missingWord => "Expected a word".toList
  | unknownWord w =>
      "Unknown word ".toList ++ Text.quoted w
  | openString => "Unterminated string literal".toList
  | openArray =>
      "Expected ',' or ']' in array literal".toList
  | deepArray => "Array nesting deeper than 2".toList
  | mixedRows =>
      "Matrix literal mixes rows and scalars".toList
  | nonNumber => "Array elements must be numbers".toList
  | beyondFloat =>
      "Array element is too large for a float".toList
  | beyondStorage z =>
      "Integer ".toList ++ intText z ++
        " does not fit in array storage".toList
  | unbracedBlock =>
      "Block literal must be enclosed in braces".toList
  | undividedBlock =>
      "Block literal is missing its '|' separator".toList
  | badCount c =>
      "Block parameter count ".toList ++ Text.quoted c ++
        " is not an integer".toList
  | strayPlaceholder i n =>
      "Placeholder x".toList ++ natText i ++
        " exceeds the block's ".toList ++ natText n ++
        " parameter(s)".toList

end Malformation

namespace Shape

/- Height and width in a message. -/
def text (s : Shape) : Text :=
  '(' :: (natText s.height ++ ", ".toList ++
    natText s.width ++ [')'])

end Shape

namespace DimensionFault

/- Which shapes do not go together. -/
def message : DimensionFault → Text
  | raggedRows ns =>
      "Matrix rows must have equal length, ".toList ++
        "got lengths [".toList ++
        Text.joinWith ", ".toList (ns.map natText) ++ [']']
  | vectorRank n =>
      "Vector requires rank 1 data, got rank ".toList ++
        natText n
  | matrixRank n =>
      "Matrix requires rank 2 data, got rank ".toList ++
        natText n
  | unequalLengths op m n =>
      op ++ " needs vectors of equal length, got ".toList ++
        natText m ++ " and ".toList ++ natText n
  | crossLengths _ m n =>
      "cross product needs 3-dimensional vectors, ".toList ++
        "got ".toList ++ natText m ++ " and ".toList ++
        natText n
  | unequalShapes op s t =>
      op ++ " needs matrices of equal shape, got ".toList ++
        s.text ++ " and ".toList ++ t.text
  | innerShapes _ s t =>
      "cannot multiply ".toList ++ s.text ++
        " by ".toList ++ t.text
  | innerLength _ s n =>
      "cannot multiply ".toList ++ s.text ++
        " matrix by vector of length ".toList ++ natText n
  | notSquare _ s =>
      "matrix power needs a square matrix, got ".toList ++
        s.text

end DimensionFault

namespace TypeFault

/- Which kinds do not suit; nothing if unspeakable. -/
def message? : TypeFault → Option Text
  | undefined op l r =>
      some ("operator ".toList ++ Text.quoted op ++
        " is not defined for ".toList ++ l.name ++
        " and ".toList ++ r.name)
  | needsBoolean op k =>
      some (op ++ " needs a boolean, got ".toList ++ k.name)
  | needsInteger op k =>
      some (op ++ " needs an integer, got ".toList ++ k.name)
  | needsMatrix op k =>
      some (op ++ " needs a matrix, got ".toList ++ k.name)
  | needsWindow op k =>
      some (op ++ " needs an integer window size, got ".toList
        ++ k.name)
  | needsCondition op k =>
      some (op ++ " condition must be a boolean, got ".toList
        ++ k.name)
  | unspeakable _ => none

end TypeFault

namespace StackFault

/- What was asked of the stack, by `token`. -/
def message
    (token : Text) : StackFault → Text
  | tooShort needed held =>
      token ++ " needs ".toList ++ intText needed ++
        " values but the stack holds ".toList ++ natText held
  | negativeCount n =>
      token ++ " cannot pop a negative count ".toList ++
        intText n
  | emptyWindow n =>
      token ++ " window must be at least 1, got ".toList ++
        intText n

end StackFault

namespace ArithmeticFault

/- Why there is no result; nothing if beyond range. -/
def message? : ArithmeticFault → Option Text
  | dividedByZero => some "divided by 0".toList
  | noRealResult a b => do
      let base ← a.messageText?
      let exponent ← b.messageText?
      return base ++ " ** ".toList ++ exponent ++
        " has no real result".toList
  | incomparable a b => do
      let left ← a.messageText?
      let right ← b.messageText?
      return left ++ " and ".toList ++ right ++
        " are not comparable".toList
  | negativeRepetition n =>
      some ("negative repetition count ".toList ++ intText n)
  | overflow z =>
      some ("integer result ".toList ++ intText z ++
        " overflows array storage".toList)
  | singular => some "singular matrix has no inverse".toList
  | beyondRange => none

end ArithmeticFault

namespace Fault

/- The message of a fault, without its place. -/
def message? : Fault → Option Text
  | malformed cause _ _ => some cause.message
  | dimension cause => some cause.message
  | typing cause => cause.message?
  | corruption cause token => some (cause.message token)
  | arithmetic cause _ => cause.message?
  | tooDeep =>
      some ("recursion limit exceeded ".toList ++
        "while evaluating program".toList)

end Fault

end StackCalc

------------------------------------------------------------
-- Descriptions
------------------------------------------------------------

namespace StackCalc

namespace FaultKind

/-
  A message with its place: the text and the position in
  it for a malformed text, the token for all others.
-/
def describe
    (kind : FaultKind)
    (message : Text)
    (token : Option Text)
    (pos : Option Nat) : Text :=
  match kind, token with
  | malformed, _ =>
      let index :=
        match pos with
        | none => []
        | some i => " at index ".toList ++ Decimal.natText i
      message ++ index ++ " in ".toList ++
        Text.quoted (token.getD [])
  | _, none => message
  | _, some t =>
      message ++ " (at token ".toList ++ Text.quoted t ++
        [')']

end FaultKind

namespace Fault

/- The message of a fault with its place. -/
def text? (f : Fault) : Option Text :=
  f.message?.map fun m =>
    f.kind.describe m f.token f.pos

end Fault

end StackCalc
