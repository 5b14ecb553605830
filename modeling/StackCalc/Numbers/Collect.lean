import StackCalc.Fault.Basic

/-
  This file makes arrays out of single numbers. Where a
  double is among the numbers all of them become doubles;
  otherwise all of them must fit into storage.

  Key definitions include:
    * `StackCalc.Unfit`
    * `StackCalc.NumVector.ofNumbers`
    * `StackCalc.NumMatrix.ofRows`
    * `StackCalc.NumMatrix.ofNumbers`
-/

------------------------------------------------------------
-- Vectors
------------------------------------------------------------

namespace StackCalc

namespace Number

/- Whether a number is a double. -/
def isFloat : Number → Bool
  | integer _ => false
  | float _ => true

/- The integers among some numbers. -/
def integers : List Number → List Int
  | [] => []
  | integer z :: ns => z :: integers ns
  | float _ :: ns => integers ns

end Number

/- Why numbers cannot be put into one array. -/
inductive Unfit where
  | beyondFloat
  | beyondStorage (z : Int)
deriving DecidableEq

namespace NumVector

/- The vector of some numbers. -/
def ofNumbers
    (ns : List Number) :
    Except Unfit NumVector :=
  if ns.any Number.isFloat then
    match ns.mapM Number.toFloat? with
    | some xs => .ok (.floats xs)
    | none => .error .beyondFloat
  else
    let zs := Number.integers ns
    match Storage.firstUnfit? zs with
    | some z => .error (.beyondStorage z)
    | none => .ok (.ints zs)

/- Whether a vector holds doubles. -/
def isFloats : NumVector → Bool
  | .ints _ => false
  | .floats _ => true

/- The integers of a vector of integers. -/
def integers : NumVector → List Int
  | .ints zs => zs
  | .floats _ => []

end NumVector

end StackCalc

------------------------------------------------------------
-- Matrices
------------------------------------------------------------

namespace StackCalc

namespace NumMatrix

/- The lengths that occur, each once and in order. -/
def distinctLengths (ns : List Nat) : List Nat :=
  ns.eraseDups.mergeSort

/-
  The common width of some rows, or the widths that differ.
  Rows that are not there have width zero.
-/
def commonWidth
    (ns : List Nat) :
    Except DimensionFault Nat :=
  match distinctLengths ns with
  | [] => .ok 0
  | [n] => .ok n
  | ns => .error (.raggedRows ns)

/-
  The matrix with some rows, which holds doubles if one of
  the rows does.
-/
def ofRows
    (rows : List NumVector) :
    Except DimensionFault NumMatrix :=
  match commonWidth (rows.map NumVector.length) with
  | .error e => .error e
  | .ok width =>
      if rows.any NumVector.isFloats then
        .ok (.floats ⟨width, rows.map Entries.toFloats⟩)
      else
        .ok (.ints ⟨width, rows.map NumVector.integers⟩)

/- The matrix with some rows of numbers. -/
def ofNumbers
    (rows : List (List Number)) :
    Except Fault NumMatrix :=
  match commonWidth (rows.map List.length) with
  | .error e => .error (.dimension e)
  | .ok width =>
      match NumVector.ofNumbers rows.flatten with
      | .error _ => .error (.arithmetic .beyondRange none)
      | .ok (.floats _) =>
          .ok (.floats ⟨width, rows.map fun row =>
            row.filterMap Number.toFloat?⟩)
      | .ok (.ints _) =>
          .ok (.ints ⟨width, rows.map Number.integers⟩)

end NumMatrix

end StackCalc
