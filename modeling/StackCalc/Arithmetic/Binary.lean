import StackCalc.Arithmetic.Array
import StackCalc.Arithmetic.Scalar
import StackCalc.Value.Basic

/-
  This file applies binary operators to values.

  Operators see strings without one layer of quotes, or
  with one more if they have none, and a string that they
  give gets its quotes in the same way.

  Key definitions include:
    * `StackCalc.Operand`
    * `StackCalc.Value.operand`
    * `StackCalc.Binary.supports`
    * `StackCalc.Binary.combine`
    * `StackCalc.Binary.apply`
    * `StackCalc.Binary.applyNamed`
-/

------------------------------------------------------------
-- Operands
------------------------------------------------------------

namespace StackCalc

/- A value as operators see it. -/
inductive Operand where
  | number (n : Number)
  | boolean (b : Bool)
  | text (t : Text)
  | vector (v : NumVector)
  | matrix (m : NumMatrix)

namespace Value

/- What operators see of a value. -/
def operand : Value → Operand
  | integer z => .number (.integer z)
  | float x => .number (.float x)
  | boolean b => .boolean b
  | string t => .text (Text.toggleQuotes t)
  | deferred t => .text (Text.toggleQuotes t)
  | vector v => .vector v
  | matrix m => .matrix m

/- The value of a number. -/
def ofNumber : Number → Value
  | .integer z => integer z
  | .float x => float x

/- The value of a text that an operator gives. -/
def ofText (t : Text) : Value :=
  string (Text.toggleQuotes t)

end Value

end StackCalc

------------------------------------------------------------
-- Texts
------------------------------------------------------------

namespace StackCalc

namespace Text

/- A text `n` times over. -/
def repeated
    (t : Text)
    (n : Nat) : Text :=
  if t.isEmpty then [] else (List.replicate n t).flatten

end Text

end StackCalc

------------------------------------------------------------
-- Operations
------------------------------------------------------------

namespace StackCalc

namespace Binary

/-
  The result of an operator on two operands, or nothing if
  it is not defined on their kinds.
-/
abbrev Result :=
  Option (Except Fault Value)

/- A value that is always there. -/
def given (v : Value) : Result :=
  some (.ok v)

/- The result of an arithmetic operation. -/
def arithmetic
    (op : BinaryOp)
    (r : Except ArithmeticFault Number) : Result :=
  some (match r with
    | .ok n => .ok (.ofNumber n)
    | .error cause => .error (arithmeticFault op cause))

/- The result of an operation on integers. -/
def integral
    (op : BinaryOp)
    (r : Except ArithmeticFault Int) : Result :=
  arithmetic op (r.map .integer)

/- Whether a comparison operator accepts an outcome. -/
def accepts : BinaryOp → Ordering → Bool
  | .greater, o => o = .gt
  | .less, o => o = .lt
  | .greaterEqual, o => o ≠ .lt
  | .lessEqual, o => o ≠ .gt
  | _, _ => false

/- An outcome as minus one, zero or one. -/
def sign : Ordering → Int
  | .lt => -1
  | .eq => 0
  | .gt => 1

/- The fault of numbers that do not compare. -/
def incomparable
    (a b : Number) : Fault :=
  if a.messageText?.isSome && b.messageText?.isSome then
    arithmeticFault .compare (.incomparable a b)
  else
    .typing (.unspeakable BinaryOp.compare.name)

/- Compare numbers with a comparison operator. -/
def compareNumbers
    (op : BinaryOp)
    (a b : Number) : Except Fault Value :=
  match op, a.compare? b with
  | .compare, some o => .ok (.integer (sign o))
  | .compare, none => .error (incomparable a b)
  | op, some o => .ok (.boolean (accepts op o))
  | _, none => .ok (.boolean false)

/- Compare texts with a comparison operator. -/
def compareTexts
    (op : BinaryOp)
    (s t : Text) : Value :=
  match op with
  | .compare => .integer (sign (Text.order s t))
  | op => .boolean (accepts op (Text.order s t))

/-
  A text over and over. Neither the count nor the length of
  the result may be beyond the greatest index there could
  be.
-/
def repetition
    (t : Text)
    (count : Int) : Except Fault Value :=
  if count < 0 then
    if Decimal.isShort count then
      .error (arithmeticFault .multiply
        (.negativeRepetition count))
    else
      .error (.typing (.unspeakable BinaryOp.multiply.name))
  else if Storage.greatest < count ∨
      Storage.greatest < t.length * count then
    .error (arithmeticFault .multiply .beyondRange)
  else
    .ok (.ofText (Text.repeated t count.toNat))

end Binary

end StackCalc

------------------------------------------------------------
-- Operators By Kind
------------------------------------------------------------

namespace StackCalc

namespace Binary

/- Operators on two integers alone. -/
def onIntegers
    (op : BinaryOp)
    (a b : Int) : Result :=
  match op with
  | .conjoin => given (.integer (Bits.conjoin a b))
  | .disjoin => given (.integer (Bits.disjoin a b))
  | .exclude => given (.integer (Bits.exclude a b))
  | .shiftLeft => integral op (Bits.shiftLeft a b)
  | .shiftRight => integral op (Bits.shiftRight a b)
  | _ => none

/- Operators on two numbers. -/
def onNumbers
    (op : BinaryOp)
    (a b : Number) : Result :=
  match op with
  | .add => arithmetic op (a.arith (· + ·) (· + ·) b)
  | .subtract => arithmetic op (a.arith (· - ·) (· - ·) b)
  | .multiply => arithmetic op (a.arith (· * ·) (· * ·) b)
  | .divide => arithmetic op (a.quotient b)
  | .remainder => arithmetic op (a.remainder b)
  | .power => arithmetic op (a.power b)
  | .greater => some (compareNumbers op a b)
  | .less => some (compareNumbers op a b)
  | .greaterEqual => some (compareNumbers op a b)
  | .lessEqual => some (compareNumbers op a b)
  | .compare => some (compareNumbers op a b)
  | _ =>
      match a, b with
      | .integer a, .integer b => onIntegers op a b
      | _, _ => none

/- Operators on two truth values. -/
def onBooleans
    (op : BinaryOp)
    (a b : Bool) : Result :=
  match op with
  | .conjoin => given (.boolean (a && b))
  | .disjoin => given (.boolean (a || b))
  | .exclude => given (.boolean (a != b))
  | _ => none

/- Operators on two texts. -/
def onTexts
    (op : BinaryOp)
    (s t : Text) : Result :=
  match op with
  | .add => given (.ofText (s ++ t))
  | .greater => given (compareTexts op s t)
  | .less => given (compareTexts op s t)
  | .greaterEqual => given (compareTexts op s t)
  | .lessEqual => given (compareTexts op s t)
  | .compare => given (compareTexts op s t)
  | _ => none

/- Operators on two vectors. -/
def onVectors
    (op : BinaryOp)
    (a b : NumVector) : Result :=
  match op with
  | .add =>
      some ((a.combine op (· + ·) (· + ·) (· + ·)
        b).map .vector)
  | .subtract =>
      some ((a.combine op (· - ·) (· - ·) (· - ·)
        b).map .vector)
  | .multiply => some ((a.dot b).map .ofNumber)
  | .cross => some ((a.cross b).map .vector)
  | _ => none

/- Operators on two matrices. -/
def onMatrices
    (op : BinaryOp)
    (a b : NumMatrix) : Result :=
  match op with
  | .add =>
      some ((a.combine op (· + ·) (· + ·) (· + ·)
        b).map .matrix)
  | .subtract =>
      some ((a.combine op (· - ·) (· - ·) (· - ·)
        b).map .matrix)
  | .multiply => some ((a.product b).map .matrix)
  | _ => none

/- Operators on a vector and a number. -/
def onVectorNumber
    (op : BinaryOp)
    (v : NumVector)
    (k : Number) : Result :=
  match op with
  | .multiply => some ((v.scale k).map .vector)
  | .divide => some ((v.divide k).map .vector)
  | _ => none

/- Operators on a matrix and a number. -/
def onMatrixNumber
    (op : BinaryOp)
    (m : NumMatrix)
    (k : Number) : Result :=
  match op, k with
  | .multiply, k => some ((m.scale k).map .matrix)
  | .divide, k => some ((m.divide k).map .matrix)
  | .power, .integer n => some ((m.power n).map .matrix)
  | _, _ => none

end Binary

end StackCalc

------------------------------------------------------------
-- Equality
------------------------------------------------------------

namespace StackCalc

namespace Operand

/- Whether operands are equal; kinds are never mixed. -/
def equals : Operand → Operand → Bool
  | number a, number b => a.equals b
  | boolean a, boolean b => a = b
  | text s, text t => s = t
  | vector a, vector b => a.agrees b
  | matrix a, matrix b => a.agrees b
  | _, _ => false

end Operand

end StackCalc

------------------------------------------------------------
-- Application
------------------------------------------------------------

namespace StackCalc

namespace Binary

/- Operators other than equality. -/
def operate
    (op : BinaryOp) :
    Operand → Operand → Result
  | .number a, .number b => onNumbers op a b
  | .boolean a, .boolean b => onBooleans op a b
  | .text s, .text t => onTexts op s t
  | .text t, .number (.integer n) =>
      if op = .multiply then some (repetition t n) else none
  | .vector a, .vector b => onVectors op a b
  | .vector v, .number k => onVectorNumber op v k
  | .number k, .vector v =>
      if op = .multiply then onVectorNumber op v k else none
  | .matrix a, .matrix b => onMatrices op a b
  | .matrix a, .vector v =>
      if op = .multiply then some ((a.apply v).map .vector)
      else none
  | .matrix m, .number k => onMatrixNumber op m k
  | .number k, .matrix m =>
      if op = .multiply then onMatrixNumber op m k else none
  | _, _ => none

/- An operator on two operands. -/
def combine
    (op : BinaryOp)
    (a b : Operand) : Result :=
  match op with
  | .equal => given (.boolean (a.equals b))
  | .unequal => given (.boolean (!a.equals b))
  | op => operate op a b

/- Apply an operator to two values. -/
def apply
    (op : BinaryOp)
    (l r : Value) : Except Fault Value :=
  match combine op l.operand r.operand with
  | some result => result
  | none => .error (.typing (.undefined op.name l.kind r.kind))

/- Apply the operator with a name to two values. -/
def applyNamed
    (name : Text)
    (l r : Value) : Except Fault Value :=
  match BinaryOp.ofName? name with
  | some op => apply op l r
  | none => .error (.typing (.undefined name l.kind r.kind))

end Binary

end StackCalc

------------------------------------------------------------
-- Definedness
------------------------------------------------------------

namespace StackCalc

namespace Kind

/- Whether values of a kind are single numbers. -/
def isNumeric : Kind → Bool
  | integer => true
  | float => true
  | _ => false

end Kind

namespace Binary

/- Whether an operator is defined on two kinds. -/
def supports
    (op : BinaryOp)
    (l r : Kind) : Bool :=
  let numbers := l.isNumeric && r.isNumeric
  let both := fun k : Kind => l = k && r = k
  match op with
  | .add =>
      numbers || both .string || both .vector || both .matrix
  | .subtract => numbers || both .vector || both .matrix
  | .multiply =>
      numbers || both .vector || both .matrix ||
        (l = .string && r = .integer) ||
        (l = .matrix && r = .vector) ||
        ((l = .vector || l = .matrix) && r.isNumeric) ||
        (l.isNumeric && (r = .vector || r = .matrix))
  | .divide =>
      numbers ||
        ((l = .vector || l = .matrix) && r.isNumeric)
  | .power => numbers || (l = .matrix && r = .integer)
  | .remainder => numbers
  | .equal => true
  | .unequal => true
  | .greater => numbers || both .string
  | .less => numbers || both .string
  | .greaterEqual => numbers || both .string
  | .lessEqual => numbers || both .string
  | .compare => numbers || both .string
  | .conjoin => both .integer || both .boolean
  | .disjoin => both .integer || both .boolean
  | .exclude => both .integer || both .boolean
  | .shiftLeft => both .integer
  | .shiftRight => both .integer
  | .cross => both .vector

/- Whether the operator with a name is defined. -/
def supportsNamed
    (name : Text)
    (l r : Kind) : Bool :=
  match BinaryOp.ofName? name with
  | some op => supports op l r
  | none => false

end Binary

end StackCalc
