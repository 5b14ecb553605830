import StackCalc.Arithmetic.Inverse
import StackCalc.Decimal.Integer
import StackCalc.Fault.Basic
import StackCalc.Operator.Basic

/-
  This file defines arithmetic on vectors and matrices.

  Integers are computed with in storage, whose words wrap.
  Before that the result is worked out exactly, and every
  entry of it must fit into storage. As soon as doubles
  take part all entries are doubles.

  Key definitions include:
    * `StackCalc.requireStored`
    * `StackCalc.toWords`
    * `StackCalc.ofWords`
    * `StackCalc.Entries.scale`
    * `StackCalc.Entries.divide`
    * `StackCalc.NumVector.combine`
    * `StackCalc.NumVector.dot`
    * `StackCalc.NumVector.cross`
    * `StackCalc.NumMatrix.combine`
    * `StackCalc.NumMatrix.product`
    * `StackCalc.NumMatrix.apply`
    * `StackCalc.NumMatrix.power`
-/

------------------------------------------------------------
-- Storage
------------------------------------------------------------

namespace StackCalc

/- The fault of an operator without a result. -/
def arithmeticFault
    (op : BinaryOp)
    (cause : ArithmeticFault) : Fault :=
  .arithmetic cause (some op.name)

/- The fault of an entry that does not fit into storage. -/
def overflowFault
    (op : BinaryOp)
    (z : Int) : Fault :=
  if Decimal.isShort z then
    arithmeticFault op (.overflow z)
  else
    .typing (.unspeakable op.name)

/- The exact entries of a result must fit into storage. -/
def requireStored
    (op : BinaryOp)
    (zs : List Int) : Except Fault Unit :=
  match Storage.firstUnfit? zs with
  | some z => .error (overflowFault op z)
  | none => .ok ()

/- A factor or divisor of an array must itself fit. -/
def storedScalar
    (op : BinaryOp)
    (z : Int) : Except Fault Int :=
  if Storage.fits z then .ok z
  else .error (arithmeticFault op .beyondRange)

end StackCalc

------------------------------------------------------------
-- Words
------------------------------------------------------------

namespace StackCalc

variable {C : Type → Type} [Shaped C]

/- The words that stand for entries in storage. -/
def toWords (c : C Int) : C Int64 :=
  Shaped.map Int64.ofInt c

/- The entries that words in storage stand for. -/
def ofWords (c : C Int64) : C Int :=
  Shaped.map Int64.toInt c

/-
  The quotient of words, rounded down. It wraps only for
  the least word and minus one.
-/
def floorQuotient
    (x y : Int64) : Int64 :=
  Int64.ofInt (Int.fdiv x.toInt y.toInt)

end StackCalc

------------------------------------------------------------
-- Arrays And Numbers
------------------------------------------------------------

namespace StackCalc

namespace Entries

variable {C : Type → Type} [Shaped C]

/- Multiply every entry by a number. -/
def scale :
    Entries C → Number → Except Fault (Entries C)
  | ints c, .integer z => do
      requireStored .multiply
        ((Shaped.toList c).map (· * z))
      let factor ← storedScalar .multiply z
      return .ints (ofWords
        (Shaped.map (· * Int64.ofInt factor) (toWords c)))
  | floats c, .integer z => do
      let factor ← storedScalar .multiply z
      return .floats
        (Shaped.map (· * Float.ofInt factor) c)
  | v, .float x =>
      .ok (.floats (Shaped.map (· * x) v.toFloats))

/- Divide every entry by a number. -/
def divide :
    Entries C → Number → Except Fault (Entries C)
  | ints c, .integer z =>
      if z = 0 then
        .error (arithmeticFault .divide .dividedByZero)
      else do
        requireStored .divide
          ((Shaped.toList c).map (Int.fdiv · z))
        let divisor ← storedScalar .divide z
        return .ints (ofWords
          (Shaped.map (floorQuotient · (Int64.ofInt divisor))
            (toWords c)))
  | floats c, .integer z => do
      let divisor ← storedScalar .divide z
      return .floats
        (Shaped.map (· / Float.ofInt divisor) c)
  | v, .float x =>
      .ok (.floats (Shaped.map (· / x) v.toFloats))

end Entries

end StackCalc

------------------------------------------------------------
-- Vectors
------------------------------------------------------------

namespace StackCalc

namespace NumVector

/-
  Combine the entries of vectors of one length, by an
  operation given on integers, on words and on doubles.
-/
def combine
    (op : BinaryOp)
    (f : Int → Int → Int)
    (w : Int64 → Int64 → Int64)
    (g : Float → Float → Float)
    (a b : NumVector) : Except Fault NumVector :=
  if a.length ≠ b.length then
    .error (.dimension
      (.unequalLengths op.name a.length b.length))
  else
    match a, b with
    | .ints xs, .ints ys => do
        requireStored op (List.zipWith f xs ys)
        return .ints (ofWords
          (List.zipWith w (toWords xs) (toWords ys)))
    | a, b =>
        .ok (.floats
          (List.zipWith g a.toFloats b.toFloats))

/- The sum of the products of vectors of one length. -/
def dot (a b : NumVector) : Except Fault Number :=
  if a.length ≠ b.length then
    .error (.dimension
      (.unequalLengths BinaryOp.multiply.name
        a.length b.length))
  else
    match a, b with
    | .ints xs, .ints ys => do
        requireStored .multiply [StackCalc.dot xs ys]
        return .integer
          (StackCalc.dot (toWords xs) (toWords ys)).toInt
    | a, b =>
        .ok (.float (StackCalc.dot a.toFloats b.toFloats))

/- The cross product of lists with three entries. -/
def crossProduct
    {α : Type}
    [Sub α]
    [Mul α] :
    List α → List α → Option (List α)
  | [a₁, a₂, a₃], [b₁, b₂, b₃] =>
      some
        [ a₂ * b₃ - a₃ * b₂,
          a₃ * b₁ - a₁ * b₃,
          a₁ * b₂ - a₂ * b₁ ]
  | _, _ => none

/- The cross product of vectors with three entries. -/
def cross (a b : NumVector) : Except Fault NumVector :=
  let wrong : Fault :=
    .dimension
      (.crossLengths BinaryOp.cross.name a.length b.length)
  match a, b with
  | .ints xs, .ints ys =>
      match crossProduct xs ys,
          crossProduct (toWords xs) (toWords ys) with
      | some zs, some ws => do
          requireStored .cross zs
          return .ints (ofWords ws)
      | _, _ => .error wrong
  | a, b =>
      match crossProduct a.toFloats b.toFloats with
      | some zs => .ok (.floats zs)
      | none => .error wrong

end NumVector

end StackCalc

------------------------------------------------------------
-- Matrices
------------------------------------------------------------

namespace StackCalc

namespace NumMatrix

/- The height and the width of a matrix. -/
def shape (m : NumMatrix) : Shape :=
  ⟨m.height, m.width⟩

/-
  Combine the entries of matrices of one shape, by an
  operation given on integers, on words and on doubles.
-/
def combine
    (op : BinaryOp)
    (f : Int → Int → Int)
    (w : Int64 → Int64 → Int64)
    (g : Float → Float → Float)
    (a b : NumMatrix) : Except Fault NumMatrix :=
  if a.shape ≠ b.shape then
    .error (.dimension
      (.unequalShapes op.name a.shape b.shape))
  else
    match a, b with
    | .ints x, .ints y => do
        requireStored op (Grid.zipWith f x y).toList
        return .ints (ofWords
          (Grid.zipWith w (toWords x) (toWords y)))
    | a, b =>
        .ok (.floats (Grid.zipWith g a.toFloats b.toFloats))

/- The product of matrices that go together. -/
def product (a b : NumMatrix) : Except Fault NumMatrix :=
  if a.width ≠ b.height then
    .error (.dimension
      (.innerShapes BinaryOp.multiply.name a.shape b.shape))
  else
    match a, b with
    | .ints x, .ints y => do
        requireStored .multiply
          (rowProducts x.rows y.rows).flatten
        return .ints (ofWords
          ((toWords x).product (toWords y)))
    | a, b => .ok (.floats (a.toFloats.product b.toFloats))

/- The product of a matrix with a vector. -/
def apply
    (a : NumMatrix)
    (b : NumVector) : Except Fault NumVector :=
  if a.width ≠ b.length then
    .error (.dimension
      (.innerLength BinaryOp.multiply.name a.shape b.length))
  else
    match a, b with
    | .ints x, .ints ys => do
        requireStored .multiply
          (rowProducts x.rows (ys.map fun y => [y])).flatten
        return .ints (ofWords
          ((toWords x).apply (toWords ys)))
    | a, b => .ok (.floats (a.toFloats.apply b.toFloats))

end NumMatrix

end StackCalc

------------------------------------------------------------
-- Matrix Powers
------------------------------------------------------------

namespace StackCalc

namespace NumMatrix

variable
  {α : Type}
  [Add α]
  [Mul α]
  [OfNat α 0]
  [OfNat α 1]

/-
  Multiply the rows `result` by a power of the rows `base`,
  by repeated squaring. Every product on the way must fit
  into storage.
-/
def exactPowerFrom
    (result base : List (List Int))
    (n : Nat) : Except Fault (List (List Int)) :=
  if n = 0 then .ok result
  else do
    let next :=
      if n % 2 = 1 then rowProducts result base else result
    if n % 2 = 1 then requireStored .power next.flatten
    if n / 2 = 0 then return next
    else do
      let square := rowProducts base base
      requireStored .power square.flatten
      exactPowerFrom next square (n / 2)
termination_by n

/-
  Multiply `result`, if there is one yet, by a power of
  `base`, by repeated squaring.
-/
def powerFrom
    (result : Option (Grid α))
    (base : Grid α)
    (n : Nat) : Grid α :=
  if n = 0 then result.getD (Grid.identity base.width)
  else
    let next :=
      if n % 2 = 1 then
        match result with
        | none => some base
        | some r => some (r.product base)
      else result
    if n / 2 = 0 then
      next.getD (Grid.identity base.width)
    else
      powerFrom next (base.product base) (n / 2)
termination_by n

/- A power of a square grid of words or doubles. -/
def gridPower
    (g : Grid α)
    (n : Nat) : Grid α :=
  if n = 3 then (g.product g).product g
  else powerFrom none g n

/-
  A power of a square matrix. A negative exponent calls
  for the inverse, in doubles.
-/
def power
    (a : NumMatrix)
    (n : Int) : Except Fault NumMatrix :=
  if a.height ≠ a.width then
    .error (.dimension
      (.notSquare BinaryOp.power.name a.shape))
  else if n < 0 then
    match a.toFloats.inverse? with
    | none => .error (arithmeticFault .power .singular)
    | some g => .ok (.floats (gridPower g n.natAbs))
  else
    match a with
    | .ints g => do
        let _ ← exactPowerFrom
          (Grid.identity g.width).rows g.rows n.natAbs
        return .ints (ofWords (gridPower (toWords g) n.natAbs))
    | .floats g => .ok (.floats (gridPower g n.natAbs))

end NumMatrix

end StackCalc
