/-
  This file defines rectangular arrays of numbers, row by
  row. The width is kept beside the rows, since an array
  without rows still has one. Sums are taken in order, which
  shows only where the terms are doubles.

  Key definitions include:
    * `StackCalc.Grid`
    * `StackCalc.Grid.WellFormed`
    * `StackCalc.Grid.map`
    * `StackCalc.Grid.zipWith`
    * `StackCalc.Grid.transpose`
    * `StackCalc.Grid.product`
    * `StackCalc.Grid.identity`
    * `StackCalc.total`
    * `StackCalc.dot`
    * `StackCalc.sideBySide`
    * `StackCalc.rowProducts`
-/

------------------------------------------------------------
-- Grids
------------------------------------------------------------

namespace StackCalc

/- Rows of entries, each row as long as the width. -/
structure Grid (α : Type) where
  width : Nat
  rows : List (List α)
deriving Repr, DecidableEq

namespace Grid

variable {α β γ : Type}

/- The number of rows. -/
def height (g : Grid α) : Nat :=
  g.rows.length

/- Every row has the width of the grid. -/
def WellFormed (g : Grid α) : Prop :=
  ∀ row ∈ g.rows, row.length = g.width

instance
    (g : Grid α) :
    Decidable g.WellFormed := by
  unfold WellFormed
  infer_instance

/- The entries, row after row. -/
def toList (g : Grid α) : List α :=
  g.rows.flatten

/- Apply a function to every entry. -/
def map
    (f : α → β)
    (g : Grid α) : Grid β :=
  ⟨g.width, g.rows.map (List.map f)⟩

/- Combine the entries at equal places. -/
def zipWith
    (f : α → β → γ)
    (g : Grid α)
    (h : Grid β) : Grid γ :=
  ⟨g.width, List.zipWith (List.zipWith f) g.rows h.rows⟩

/- Mapping keeps the rows as long as the width. -/
theorem wellFormed_map
    {f : α → β}
    {g : Grid α}
    (h : g.WellFormed) :
    (g.map f).WellFormed := by
  intro row hRow
  obtain ⟨r, hr, rfl⟩ := List.mem_map.1 hRow
  simpa [map] using h r hr

end Grid

end StackCalc

------------------------------------------------------------
-- Columns And Products
------------------------------------------------------------

namespace StackCalc

variable {α : Type}

/-
  The sum of terms in order. A single term is its own sum;
  otherwise the terms are added to zero, which shows where
  a zero has a sign.
-/
def total
    [Add α]
    [OfNat α 0] :
    List α → α
  | [a] => a
  | as => as.foldl (· + ·) 0

/- The sum of the products of entries at equal places. -/
def dot
    [Add α]
    [Mul α]
    [OfNat α 0]
    (xs ys : List α) : α :=
  total (List.zipWith (· * ·) xs ys)

/-
  The columns that rows show side by side, as many as the
  shortest row has entries. No rows show no columns.
-/
def sideBySide : List (List α) → List (List α)
  | [] => []
  | [row] => row.map fun a => [a]
  | row :: rows => List.zipWith (· :: ·) row (sideBySide rows)

/-
  The products of rows with the columns that other rows
  show. Unlike those of grids, they know of no width.
-/
def rowProducts
    [Add α]
    [Mul α]
    [OfNat α 0]
    (left right : List (List α)) : List (List α) :=
  left.map fun row => (sideBySide right).map (dot row)

/- Integers may be added to zero whatever their number. -/
theorem total_eq_foldl
    (zs : List Int) :
    total zs = zs.foldl (· + ·) 0 := by
  unfold total
  split
  · simp
  · rfl

namespace Grid

/- The entries of one column, from the top. -/
def column
    (g : Grid α)
    (j : Nat) : List α :=
  g.rows.filterMap fun row => row[j]?

/- All columns, from the left. -/
def columns (g : Grid α) : List (List α) :=
  (List.range g.width).map g.column

/- The grid whose rows are the columns. -/
def transpose (g : Grid α) : Grid α :=
  ⟨g.height, g.columns⟩

/- The products of all rows with all columns. -/
def product
    [Add α]
    [Mul α]
    [OfNat α 0]
    (g h : Grid α) : Grid α :=
  ⟨h.width, g.rows.map fun row => h.columns.map (dot row)⟩

/- The products of all rows with a vector. -/
def apply
    [Add α]
    [Mul α]
    [OfNat α 0]
    (g : Grid α)
    (xs : List α) : List α :=
  g.rows.map fun row => dot row xs

/- Ones on the diagonal and zeros elsewhere. -/
def identity
    [OfNat α 0]
    [OfNat α 1]
    (n : Nat) : Grid α :=
  ⟨n, (List.range n).map fun i =>
    (List.range n).map fun j => if i = j then 1 else 0⟩

/- A product is as wide as its right factor. -/
theorem wellFormed_product
    [Add α]
    [Mul α]
    [OfNat α 0]
    (g h : Grid α) :
    (g.product h).WellFormed := by
  intro row hRow
  obtain ⟨r, _, rfl⟩ := List.mem_map.1 hRow
  simp [columns, product]

end Grid

end StackCalc
