import StackCalc.Numbers.Grid
import StackCalc.Numbers.Storage

/-
  This file defines number arrays of one or two dimensions.
  An array holds only integers or only doubles.

  Key definitions include:
    * `StackCalc.Shaped`
    * `StackCalc.Entries`
    * `StackCalc.NumVector`
    * `StackCalc.NumMatrix`
    * `StackCalc.Entries.toFloats`
    * `StackCalc.Entries.agrees`
-/

------------------------------------------------------------
-- Shapes
------------------------------------------------------------

namespace StackCalc

/-
  Containers with a shape, whose entries can be mapped and
  listed in order.
-/
class Shaped (C : Type → Type) where
  shape : {α : Type} → C α → List Nat
  map : {α β : Type} → (α → β) → C α → C β
  toList : {α : Type} → C α → List α

instance : Shaped List where
  shape xs := [xs.length]
  map := List.map
  toList xs := xs

instance : Shaped Grid where
  shape g := [g.height, g.width]
  map := Grid.map
  toList := Grid.toList

end StackCalc

------------------------------------------------------------
-- Entries
------------------------------------------------------------

namespace StackCalc

/- A container of integers or a container of doubles. -/
inductive Entries (C : Type → Type) where
  | ints (c : C Int)
  | floats (c : C Float)

/- A sequence of numbers. -/
abbrev NumVector :=
  Entries List

/- A rectangle of numbers. -/
abbrev NumMatrix :=
  Entries Grid

namespace Entries

variable {C : Type → Type} [Shaped C]

/- The entries as doubles. -/
def toFloats : Entries C → C Float
  | ints c => Shaped.map Float.ofInt c
  | floats c => c

/- The shape, from the outermost dimension on. -/
def shape : Entries C → List Nat
  | ints c => Shaped.shape c
  | floats c => Shaped.shape c

/-
  Whether two arrays have one shape and equal entries. An
  array of integers meets an array of doubles as doubles.
-/
def agrees : Entries C → Entries C → Bool
  | ints c, ints d =>
      Shaped.shape c = Shaped.shape d &&
        Shaped.toList c = Shaped.toList d
  | a, b =>
      a.shape = b.shape &&
        (List.zipWith (· == ·)
          (Shaped.toList a.toFloats)
          (Shaped.toList b.toFloats)).all id

/- All integers among the entries can be stored. -/
def Stored : Entries C → Prop
  | ints c => ∀ z ∈ Shaped.toList c, Storage.fits z = true
  | floats _ => True

end Entries

namespace NumVector

/- The number of entries. -/
def length : NumVector → Nat
  | .ints xs => xs.length
  | .floats xs => xs.length

end NumVector

namespace NumMatrix

/- The number of rows. -/
def height : NumMatrix → Nat
  | .ints g => g.height
  | .floats g => g.height

/- The number of columns. -/
def width : NumMatrix → Nat
  | .ints g => g.width
  | .floats g => g.width

/- Every row has the width of the matrix. -/
def WellFormed : NumMatrix → Prop
  | .ints g => g.WellFormed
  | .floats g => g.WellFormed

/- The matrix whose rows are the columns. -/
def transpose : NumMatrix → NumMatrix
  | .ints g => .ints g.transpose
  | .floats g => .floats g.transpose

end NumMatrix

end StackCalc
