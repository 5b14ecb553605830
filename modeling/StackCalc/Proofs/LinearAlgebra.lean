import Mathlib.Algebra.BigOperators.Fin
import Mathlib.LinearAlgebra.CrossProduct
import StackCalc.Arithmetic.Array

/-
  Lists and grids as vectors and matrices.

  A list of a known length lists the entries of a vector,
  and a grid those of a matrix. Under this reading the
  products of lists and grids are those of linear algebra,
  also where there are no rows or no columns.

  Main declarations:
    * `exists_eq_ofFn`
    * `dot_ofFn`
    * `crossProduct_ofFn`
    * `Grid.ofMatrix`
    * `Grid.exists_eq_ofMatrix`
    * `Grid.columns_ofMatrix`
    * `Grid.product_ofMatrix`
    * `Grid.apply_ofMatrix`
-/

------------------------------------------------------------
-- Vectors
------------------------------------------------------------

namespace StackCalc

open scoped Matrix

/- Every list lists the entries of a vector. -/
theorem exists_eq_ofFn
    {α : Type}
    {n : ℕ}
    {xs : List α}
    (h : xs.length = n) :
    ∃ u : Fin n → α, xs = List.ofFn u := by
  subst h
  exact ⟨xs.get, (List.ofFn_get xs).symm⟩

theorem zipWith_ofFn
    {α β γ : Type}
    {n : ℕ}
    (f : α → β → γ)
    (u : Fin n → α)
    (v : Fin n → β) :
    List.zipWith f (List.ofFn u) (List.ofFn v) =
      List.ofFn fun i => f (u i) (v i) := by
  apply List.ext_getElem
  · simp
  · simp

theorem dot_ofFn
    {n : ℕ}
    (u v : Fin n → ℤ) :
    dot (List.ofFn u) (List.ofFn v) = u ⬝ᵥ v := by
  rw [dot, zipWith_ofFn, total_eq_foldl,
    ← List.sum_eq_foldl, List.sum_ofFn]
  rfl

theorem crossProduct_ofFn
    (u v : Fin 3 → ℤ) :
    NumVector.crossProduct (List.ofFn u) (List.ofFn v) =
      some (List.ofFn (u ⨯₃ v)) := by
  rw [cross_apply]
  rfl

end StackCalc

------------------------------------------------------------
-- Matrices
------------------------------------------------------------

namespace StackCalc

open scoped Matrix

namespace Grid

variable {α : Type} {m n : ℕ}

/- The grid of the entries of a matrix. -/
def ofMatrix
    (A : Matrix (Fin m) (Fin n) α) : Grid α :=
  ⟨n, List.ofFn fun i => List.ofFn (A i)⟩

theorem wellFormed_ofMatrix
    (A : Matrix (Fin m) (Fin n) α) :
    (ofMatrix A).WellFormed := by
  intro row hRow
  rcases List.mem_ofFn.1 hRow with ⟨i, rfl⟩
  simp [ofMatrix]

theorem height_ofMatrix
    (A : Matrix (Fin m) (Fin n) α) :
    (ofMatrix A).height = m := by
  simp [height, ofMatrix]

/- Every grid is the grid of a matrix. -/
theorem exists_eq_ofMatrix
    {g : Grid α}
    (h : g.WellFormed)
    (hHeight : g.height = m)
    (hWidth : g.width = n) :
    ∃ A : Matrix (Fin m) (Fin n) α, g = ofMatrix A := by
  subst hHeight hWidth
  have hRow (i : Fin g.rows.length) :
      ∃ u : Fin g.width → α, g.rows.get i = List.ofFn u :=
    exists_eq_ofFn (h _ (List.get_mem g.rows i))
  choose A hA using hRow
  have hRows :
      g.rows = List.ofFn fun i => List.ofFn (A i) :=
    calc
      g.rows = List.ofFn g.rows.get :=
        (List.ofFn_get g.rows).symm
      _ = List.ofFn fun i => List.ofFn (A i) :=
        congrArg List.ofFn (funext hA)
  exact ⟨A, congrArg (Grid.mk g.width) hRows⟩

theorem column_ofMatrix
    (A : Matrix (Fin m) (Fin n) α)
    (j : Fin n) :
    (ofMatrix A).column j = List.ofFn (Aᵀ j) := by
  have hEntry :
      ((fun row : List α => row[(j : ℕ)]?) ∘
        fun i => List.ofFn (A i)) =
          fun i => some (A i j) := by
    funext i
    simp
  rw [column, ofMatrix, List.ofFn_eq_map, List.filterMap_map,
    hEntry, List.filterMap_eq_map', List.ofFn_eq_map]
  rfl

theorem columns_ofMatrix
    (A : Matrix (Fin m) (Fin n) α) :
    (ofMatrix A).columns =
      List.ofFn fun j => List.ofFn (Aᵀ j) := by
  apply List.ext_getElem
  · simp [columns, ofMatrix]
  · intro j hj _
    have hj' : j < n := by
      simpa [columns, ofMatrix] using hj
    simpa [columns] using column_ofMatrix A ⟨j, hj'⟩

theorem zipWith_ofMatrix
    {β γ : Type}
    (f : α → β → γ)
    (A : Matrix (Fin m) (Fin n) α)
    (B : Matrix (Fin m) (Fin n) β) :
    (ofMatrix A).zipWith f (ofMatrix B) =
      ofMatrix fun i j => f (A i j) (B i j) := by
  simp only [zipWith, ofMatrix, zipWith_ofFn]

theorem map_ofMatrix
    {β : Type}
    (f : α → β)
    (A : Matrix (Fin m) (Fin n) α) :
    (ofMatrix A).map f = ofMatrix (A.map f) := by
  simp only [map, ofMatrix, List.map_ofFn,
    Function.comp_def]
  rfl

theorem product_ofMatrix
    {l : ℕ}
    (A : Matrix (Fin l) (Fin m) ℤ)
    (B : Matrix (Fin m) (Fin n) ℤ) :
    (ofMatrix A).product (ofMatrix B) =
      ofMatrix (A * B) := by
  rw [product, columns_ofMatrix]
  simp only [ofMatrix, List.map_ofFn, Function.comp_def,
    dot_ofFn]
  rfl

theorem apply_ofMatrix
    (A : Matrix (Fin m) (Fin n) ℤ)
    (v : Fin n → ℤ) :
    (ofMatrix A).apply (List.ofFn v) =
      List.ofFn (A *ᵥ v) := by
  simp only [apply, ofMatrix, List.map_ofFn,
    Function.comp_def, dot_ofFn]
  rfl

end Grid

end StackCalc
