import StackCalc.Numbers.Grid

/-
  This file inverts matrices of doubles. The rows of the
  matrix, with the rows of the identity beside them, are
  brought into triangular form and then solved from the
  last one up.

  All arithmetic is that of doubles, so infinite entries
  need no rule of their own, and a matrix whose determinant
  is too small for a double has no inverse.

  `Grid.isSingular` and `Grid.inverse?` stand for kernels of
  an array library, and so do `total` and `dot` where their
  terms are doubles. Such a kernel is free to order a sum,
  to choose pivots and to round on the way as it likes, and
  one way is fixed here. The choice shows in the last digits
  of a double, and in whether a determinant near zero
  vanishes. No proof depends on it: of inverses and of sums
  of doubles they use the shapes only.

  Key definitions include:
    * `StackCalc.Elimination.pivotAmong`
    * `StackCalc.Elimination.triangular`
    * `StackCalc.Elimination.solved`
    * `StackCalc.Grid.isSingular`
    * `StackCalc.Grid.inverse?`
-/

------------------------------------------------------------
-- Pivots
------------------------------------------------------------

namespace StackCalc

namespace Elimination

/- A row of a matrix, and further entries beside it. -/
abbrev Row :=
  List Float

/- The first entry of a row. -/
def lead (row : Row) : Float :=
  row.headD 0

/-
  The first of the rows with the greatest first entry, and
  the place where it was found.
-/
def pivotAmong
    (first : Row)
    (rest : List Row) : Row × Nat :=
  (first :: rest).zipIdx.foldl
    (fun best p =>
      if (lead best.1).abs < (lead p.1).abs then p else best)
    (first, 0)

/- The rows after the first, the first in a pivot's place. -/
def exchanged
    (place : Nat)
    (first : Row)
    (rest : List Row) : List Row :=
  if place = 0 then rest else rest.set (place - 1) first

end Elimination

end StackCalc

------------------------------------------------------------
-- Elimination
------------------------------------------------------------

namespace StackCalc

namespace Elimination

/- A row less a multiple of another. -/
def less
    (factor : Float)
    (other row : Row) : Row :=
  List.zipWith (fun a b => a - factor * b) row other

/-
  How often a pivot row is taken off a row with the first
  entry `a`. Below a pivot of zero there is nothing to take
  off.
-/
def multiple
    (pivot a : Float) : Float :=
  if pivot == 0 then a else a * (1 / pivot)

/- A row without its first entry, by means of a pivot row. -/
def cleared
    (pivotRow row : Row) : Row :=
  less (multiple (lead pivotRow) (lead row))
    pivotRow.tail row.tail

/-
  Bring rows into triangular form: each row starts with its
  pivot and is one entry shorter than the row before.
-/
def triangular : Nat → List Row → List Row
  | 0, _ => []
  | _, [] => []
  | n + 1, first :: rest =>
      let (row, place) := pivotAmong first rest
      row :: triangular n
        ((exchanged place first rest).map (cleared row))

/-
  Solve a row in triangular form, when the rows after it
  are solved already.
-/
def solvedRow
    (row : Row)
    (later : List Row) : Row :=
  let coefficients := row.tail.take later.length
  let beside := row.tail.drop later.length
  let left := (coefficients.zip later).foldr
    (fun p rest => less p.1 p.2 rest) beside
  left.map (· * (1 / lead row))

/- Solve rows in triangular form from the last one up. -/
def solved (rows : List Row) : List Row :=
  rows.foldr
    (fun row later => solvedRow row later :: later) []

/- The rows of the identity, beside the rows of a matrix. -/
def augmented (g : Grid Float) : List Row :=
  List.zipWith (· ++ ·) g.rows (Grid.identity g.width).rows

/- The pivots that elimination finds. -/
def pivots (rows : List Row) : List Float :=
  rows.map lead

end Elimination

end StackCalc

------------------------------------------------------------
-- Inverses
------------------------------------------------------------

namespace StackCalc

namespace Grid

open Elimination

/-
  Whether the product of pivots vanishes. Its size comes
  from the sum of their logarithms.
-/
def productVanishes (ps : List Float) : Bool :=
  ps.any (· == 0) ||
    Float.exp (total (ps.map fun p => Float.log p.abs)) == 0

/-
  Whether the determinant of a square grid vanishes.
  Determinants of two or three rows are written out, and
  others are the product of the pivots.
-/
def isSingular (g : Grid Float) : Bool :=
  match g.rows with
  | [[a, b], [c, d]] => a * d - b * c == 0
  | [[a₁, a₂, a₃], [b₁, b₂, b₃], [c₁, c₂, c₃]] =>
      a₁ * b₂ * c₃ + a₂ * b₃ * c₁ + a₃ * b₁ * c₂ -
        a₃ * b₂ * c₁ - a₁ * b₃ * c₂ - a₂ * b₁ * c₃ == 0
  | rows => productVanishes (pivots (triangular g.width rows))

/- The inverse of a square grid of doubles, if any. -/
def inverse? (g : Grid Float) : Option (Grid Float) :=
  if g.isSingular then none
  else
    some ⟨g.width,
      solved (triangular g.width (augmented g))⟩

end Grid

end StackCalc
