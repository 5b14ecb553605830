import StackCalc.Arithmetic.Binary
import StackCalc.Proofs.ExactArrays
import StackCalc.Proofs.LinearAlgebra

/-
  Operators on integer arrays against linear algebra.

  `Binary.Exact` says what an operator gives on integer
  vectors, matrices and numbers when integers have no
  bounds. The operators of the calculator give just that
  when it fits into storage, and a fault when it does not:
  nothing wraps around.

  Main declarations:
    * `Binary.Compatible`
    * `Binary.Exact`
    * `Binary.Compatible.exists_exact`
    * `Binary.Representable`
    * `Binary.givesWhen_representable`
    * `Binary.apply_eq_ok_iff_representable`
-/

------------------------------------------------------------
-- Exact Results
------------------------------------------------------------

namespace StackCalc

open scoped Matrix

namespace Value

/- The value of an integer vector. -/
def ofVector
    {n : ℕ}
    (u : Fin n → ℤ) : Value :=
  vector (.ints (List.ofFn u))

/- The value of an integer matrix. -/
def ofMatrix
    {m n : ℕ}
    (A : Matrix (Fin m) (Fin n) ℤ) : Value :=
  matrix (.ints (Grid.ofMatrix A))

theorem ofVector_ne_integer
    {n : ℕ}
    (u : Fin n → ℤ)
    (z : ℤ) :
    ofVector u ≠ integer z := by
  simp [ofVector]

theorem ofMatrix_ne_integer
    {m n : ℕ}
    (A : Matrix (Fin m) (Fin n) ℤ)
    (z : ℤ) :
    ofMatrix A ≠ integer z := by
  simp [ofMatrix]

theorem exists_ofVector
    {n : ℕ}
    {xs : List ℤ}
    (h : xs.length = n) :
    ∃ u : Fin n → ℤ, vector (.ints xs) = ofVector u := by
  rcases exists_eq_ofFn h with ⟨u, rfl⟩
  exact ⟨u, rfl⟩

theorem exists_ofMatrix
    {m n : ℕ}
    {g : Grid ℤ}
    (h : g.WellFormed)
    (hHeight : g.height = m)
    (hWidth : g.width = n) :
    ∃ A : Matrix (Fin m) (Fin n) ℤ,
      matrix (.ints g) = ofMatrix A := by
  rcases Grid.exists_eq_ofMatrix h hHeight hWidth with
    ⟨A, rfl⟩
  exact ⟨A, rfl⟩

/- The integers that a value consists of. -/
def integers : Value → List ℤ
  | integer z => [z]
  | vector (.ints xs) => xs
  | matrix (.ints g) => g.toList
  | _ => []

/- The integers in an array can be stored. -/
def Stored : Value → Prop
  | vector v => v.Stored
  | matrix m => m.Stored
  | _ => True

end Value

namespace Binary

/-
  Integer arrays and numbers that an operator can combine:
  their shapes go together.
-/
inductive Compatible : BinaryOp → Value → Value → Prop where
  | vectors
      {op : BinaryOp}
      {xs ys : List ℤ}
      (hOp : op = .add ∨ op = .subtract ∨ op = .multiply)
      (hLength : xs.length = ys.length) :
      Compatible op (.vector (.ints xs)) (.vector (.ints ys))
  | spatial
      {xs ys : List ℤ}
      (hx : xs.length = 3)
      (hy : ys.length = 3) :
      Compatible .cross
        (.vector (.ints xs)) (.vector (.ints ys))
  | matrices
      {op : BinaryOp}
      {x y : Grid ℤ}
      (hOp : op = .add ∨ op = .subtract)
      (hx : x.WellFormed)
      (hy : y.WellFormed)
      (hHeight : x.height = y.height)
      (hWidth : x.width = y.width) :
      Compatible op (.matrix (.ints x)) (.matrix (.ints y))
  | factors
      {x y : Grid ℤ}
      (hx : x.WellFormed)
      (hy : y.WellFormed)
      (hInner : x.width = y.height) :
      Compatible .multiply
        (.matrix (.ints x)) (.matrix (.ints y))
  | matrixVector
      {x : Grid ℤ}
      {ys : List ℤ}
      (hx : x.WellFormed)
      (hInner : x.width = ys.length) :
      Compatible .multiply
        (.matrix (.ints x)) (.vector (.ints ys))
  | vectorNumber
      {op : BinaryOp}
      (hOp : op = .multiply ∨ op = .divide)
      (xs : List ℤ)
      (k : ℤ) :
      Compatible op (.vector (.ints xs)) (.integer k)
  | numberVector
      (k : ℤ)
      (xs : List ℤ) :
      Compatible .multiply (.integer k) (.vector (.ints xs))
  | matrixNumber
      {op : BinaryOp}
      {x : Grid ℤ}
      (hOp : op = .multiply ∨ op = .divide)
      (hx : x.WellFormed)
      (k : ℤ) :
      Compatible op (.matrix (.ints x)) (.integer k)
  | numberMatrix
      {x : Grid ℤ}
      (k : ℤ)
      (hx : x.WellFormed) :
      Compatible .multiply (.integer k) (.matrix (.ints x))

/-
  What an operator gives on integer arrays and numbers when
  integers have no bounds.
-/
inductive Exact :
    BinaryOp → Value → Value → Value → Prop where
  | vectorSum {n : ℕ} (u v : Fin n → ℤ) :
      Exact .add (.ofVector u) (.ofVector v)
        (.ofVector (u + v))
  | vectorDifference {n : ℕ} (u v : Fin n → ℤ) :
      Exact .subtract (.ofVector u) (.ofVector v)
        (.ofVector (u - v))
  | dotProduct {n : ℕ} (u v : Fin n → ℤ) :
      Exact .multiply (.ofVector u) (.ofVector v)
        (.integer (u ⬝ᵥ v))
  | crossProduct (u v : Fin 3 → ℤ) :
      Exact .cross (.ofVector u) (.ofVector v)
        (.ofVector (u ⨯₃ v))
  | vectorTimes {n : ℕ} (u : Fin n → ℤ) (k : ℤ) :
      Exact .multiply (.ofVector u) (.integer k)
        (.ofVector (k • u))
  | timesVector {n : ℕ} (k : ℤ) (u : Fin n → ℤ) :
      Exact .multiply (.integer k) (.ofVector u)
        (.ofVector (k • u))
  | vectorQuotient {n : ℕ} (u : Fin n → ℤ) (k : ℤ) :
      Exact .divide (.ofVector u) (.integer k)
        (.ofVector fun i => (u i).fdiv k)
  | matrixSum {m n : ℕ} (A B : Matrix (Fin m) (Fin n) ℤ) :
      Exact .add (.ofMatrix A) (.ofMatrix B)
        (.ofMatrix (A + B))
  | matrixDifference
      {m n : ℕ}
      (A B : Matrix (Fin m) (Fin n) ℤ) :
      Exact .subtract (.ofMatrix A) (.ofMatrix B)
        (.ofMatrix (A - B))
  | matrixProduct
      {l m n : ℕ}
      (A : Matrix (Fin l) (Fin m) ℤ)
      (B : Matrix (Fin m) (Fin n) ℤ) :
      Exact .multiply (.ofMatrix A) (.ofMatrix B)
        (.ofMatrix (A * B))
  | matrixVector
      {m n : ℕ}
      (A : Matrix (Fin m) (Fin n) ℤ)
      (v : Fin n → ℤ) :
      Exact .multiply (.ofMatrix A) (.ofVector v)
        (.ofVector (A *ᵥ v))
  | matrixTimes
      {m n : ℕ}
      (A : Matrix (Fin m) (Fin n) ℤ)
      (k : ℤ) :
      Exact .multiply (.ofMatrix A) (.integer k)
        (.ofMatrix (k • A))
  | timesMatrix
      {m n : ℕ}
      (k : ℤ)
      (A : Matrix (Fin m) (Fin n) ℤ) :
      Exact .multiply (.integer k) (.ofMatrix A)
        (.ofMatrix (k • A))
  | matrixQuotient
      {m n : ℕ}
      (A : Matrix (Fin m) (Fin n) ℤ)
      (k : ℤ) :
      Exact .divide (.ofMatrix A) (.integer k)
        (.ofMatrix (A.map fun z => z.fdiv k))

/- What is compatible has an exact result. -/
theorem Compatible.exists_exact
    {op : BinaryOp}
    {l r : Value}
    (h : Compatible op l r) :
    ∃ e, Exact op l r e := by
  cases h with
  | @vectors _ xs ys hOp hLength =>
      rcases Value.exists_ofVector hLength with ⟨u, hu⟩
      rcases Value.exists_ofVector (Eq.refl ys.length) with
        ⟨v, hv⟩
      rw [hu, hv]
      rcases hOp with rfl | rfl | rfl
      · exact ⟨_, .vectorSum u v⟩
      · exact ⟨_, .vectorDifference u v⟩
      · exact ⟨_, .dotProduct u v⟩
  | @spatial xs ys hx hy =>
      rcases Value.exists_ofVector hx with ⟨u, hu⟩
      rcases Value.exists_ofVector hy with ⟨v, hv⟩
      rw [hu, hv]
      exact ⟨_, .crossProduct u v⟩
  | @matrices _ x y hOp hx hy hHeight hWidth =>
      rcases Value.exists_ofMatrix hx hHeight hWidth with
        ⟨A, hA⟩
      rcases Value.exists_ofMatrix hy rfl rfl with ⟨B, hB⟩
      rw [hA, hB]
      rcases hOp with rfl | rfl
      · exact ⟨_, .matrixSum A B⟩
      · exact ⟨_, .matrixDifference A B⟩
  | @factors x y hx hy hInner =>
      rcases Value.exists_ofMatrix hx rfl hInner with ⟨A, hA⟩
      rcases Value.exists_ofMatrix hy rfl rfl with ⟨B, hB⟩
      rw [hA, hB]
      exact ⟨_, .matrixProduct A B⟩
  | @matrixVector x ys hx hInner =>
      rcases Value.exists_ofMatrix hx rfl hInner with ⟨A, hA⟩
      rcases Value.exists_ofVector (Eq.refl ys.length) with
        ⟨v, hv⟩
      rw [hA, hv]
      exact ⟨_, .matrixVector A v⟩
  | vectorNumber hOp xs k =>
      rcases Value.exists_ofVector (Eq.refl xs.length) with
        ⟨u, hu⟩
      rw [hu]
      rcases hOp with rfl | rfl
      · exact ⟨_, .vectorTimes u k⟩
      · exact ⟨_, .vectorQuotient u k⟩
  | numberVector k xs =>
      rcases Value.exists_ofVector (Eq.refl xs.length) with
        ⟨u, hu⟩
      rw [hu]
      exact ⟨_, .timesVector k u⟩
  | matrixNumber hOp hx k =>
      rcases Value.exists_ofMatrix hx rfl rfl with ⟨A, hA⟩
      rw [hA]
      rcases hOp with rfl | rfl
      · exact ⟨_, .matrixTimes A k⟩
      · exact ⟨_, .matrixQuotient A k⟩
  | numberMatrix k hx =>
      rcases Value.exists_ofMatrix hx rfl rfl with ⟨A, hA⟩
      rw [hA]
      exact ⟨_, .timesMatrix k A⟩

end Binary

end StackCalc

------------------------------------------------------------
-- Exact Or Failing
------------------------------------------------------------

namespace StackCalc

open scoped Matrix

namespace Binary

/-
  An exact result can be stored, so can a number among the
  operands, and nothing is divided by zero.
-/
def Representable
    (op : BinaryOp)
    (l r e : Value) : Prop :=
  (∀ z ∈ e.integers, Storage.fits z = true) ∧
    (∀ k, l = .integer k ∨ r = .integer k →
      Storage.fits k = true) ∧
    (op = .divide → r ≠ .integer 0)

section Conditions

variable
  {l r e : Value}
  {k : ℤ}

theorem representable_iff_of_arrays
    {op : BinaryOp}
    (hOp : op ≠ .divide)
    (hLeft : ∀ x, l ≠ .integer x)
    (hRight : ∀ x, r ≠ .integer x) :
    Representable op l r e ↔
      ∀ z ∈ e.integers, Storage.fits z = true := by
  simp [Representable, hOp, hLeft, hRight]

theorem representable_times_iff
    (hLeft : ∀ x, l ≠ .integer x) :
    Representable .multiply l (.integer k) e ↔
      (∀ z ∈ e.integers, Storage.fits z = true) ∧
        Storage.fits k = true := by
  simp [Representable, hLeft]

theorem representable_timesArray_iff
    (hRight : ∀ x, r ≠ .integer x) :
    Representable .multiply (.integer k) r e ↔
      (∀ z ∈ e.integers, Storage.fits z = true) ∧
        Storage.fits k = true := by
  simp [Representable, hRight]

theorem representable_quotient_iff
    (hLeft : ∀ x, l ≠ .integer x) :
    Representable .divide l (.integer k) e ↔
      (∀ z ∈ e.integers, Storage.fits z = true) ∧
        Storage.fits k = true ∧ k ≠ 0 := by
  simp [Representable, hLeft]

end Conditions

theorem length_ofFn_eq
    {n : ℕ}
    (u v : Fin n → ℤ) :
    (List.ofFn u).length = (List.ofFn v).length := by
  simp

theorem shape_ofMatrix_eq
    {m n : ℕ}
    (A B : Matrix (Fin m) (Fin n) ℤ) :
    NumMatrix.shape (.ints (Grid.ofMatrix A)) =
      NumMatrix.shape (.ints (Grid.ofMatrix B)) := by
  simp [NumMatrix.shape, NumMatrix.height, NumMatrix.width,
    Grid.height, Grid.ofMatrix]

/- Scaled entries in the order of linear algebra. -/
theorem map_mul_ofFn
    {n : ℕ}
    (u : Fin n → ℤ)
    (k : ℤ) :
    Shaped.map (· * k) (List.ofFn u) = List.ofFn (k • u) := by
  have hScaled : (fun i => u i * k) = k • u := by
    funext i
    exact mul_comm (u i) k
  rw [← hScaled]
  exact List.map_ofFn

theorem map_mul_ofMatrix
    {m n : ℕ}
    (A : Matrix (Fin m) (Fin n) ℤ)
    (k : ℤ) :
    Shaped.map (· * k) (Grid.ofMatrix A) =
      Grid.ofMatrix (k • A) := by
  have hScaled : A.map (· * k) = k • A := by
    ext i j
    exact mul_comm (A i j) k
  rw [← hScaled]
  exact Grid.map_ofMatrix (· * k) A

/-
  The operators give the exact result when it can be
  represented, else a fault.
-/
theorem givesWhen_representable
    {op : BinaryOp}
    {l r e : Value}
    (h : Exact op l r e)
    (hStored : l.Stored) :
    GivesWhen (Representable op l r e) (apply op l r) e := by
  have hAdd (x y : ℤ) := (Int64.ofInt_add x y).symm
  have hSub (x y : ℤ) := (Int64.ofInt_sub x y).symm
  cases h with
  | vectorSum u v =>
      rw [representable_iff_of_arrays (by simp)
        (Value.ofVector_ne_integer u)
        (Value.ofVector_ne_integer v)]
      have hGives :=
        NumVector.combine_ints hAdd .add (· + ·)
          (length_ofFn_eq u v)
      rw [zipWith_ofFn] at hGives
      exact hGives.map Value.vector
  | vectorDifference u v =>
      rw [representable_iff_of_arrays (by simp)
        (Value.ofVector_ne_integer u)
        (Value.ofVector_ne_integer v)]
      have hGives :=
        NumVector.combine_ints hSub .subtract (· - ·)
          (length_ofFn_eq u v)
      rw [zipWith_ofFn] at hGives
      exact hGives.map Value.vector
  | dotProduct u v =>
      rw [representable_iff_of_arrays (by simp)
        (Value.ofVector_ne_integer u)
        (Value.ofVector_ne_integer v)]
      have hGives := NumVector.dot_ints (length_ofFn_eq u v)
      rw [dot_ofFn] at hGives
      exact (hGives.map Value.ofNumber).congr
        (by simp [Value.integers]) fun _ => rfl
  | crossProduct u v =>
      rw [representable_iff_of_arrays (by simp)
        (Value.ofVector_ne_integer u)
        (Value.ofVector_ne_integer v)]
      exact (NumVector.cross_ints
        (crossProduct_ofFn u v)).map Value.vector
  | vectorTimes u k =>
      rw [representable_times_iff
        (Value.ofVector_ne_integer u)]
      have hGives := Entries.scale_ints (List.ofFn u) k
      rw [map_mul_ofFn] at hGives
      exact hGives.map Value.vector
  | timesVector k u =>
      rw [representable_timesArray_iff
        (Value.ofVector_ne_integer u)]
      have hGives := Entries.scale_ints (List.ofFn u) k
      rw [map_mul_ofFn] at hGives
      exact hGives.map Value.vector
  | vectorQuotient u k =>
      rw [representable_quotient_iff
        (Value.ofVector_ne_integer u)]
      have hGives := Entries.divide_ints hStored k
      have hEntries :
          Shaped.map (Int.fdiv · k) (List.ofFn u) =
            List.ofFn fun i => (u i).fdiv k :=
        List.map_ofFn
      rw [hEntries] at hGives
      exact hGives.map Value.vector
  | matrixSum A B =>
      rw [representable_iff_of_arrays (by simp)
        (Value.ofMatrix_ne_integer A)
        (Value.ofMatrix_ne_integer B)]
      have hGives :=
        NumMatrix.combine_ints hAdd .add (· + ·)
          (shape_ofMatrix_eq A B)
      rw [Grid.zipWith_ofMatrix] at hGives
      exact hGives.map Value.matrix
  | matrixDifference A B =>
      rw [representable_iff_of_arrays (by simp)
        (Value.ofMatrix_ne_integer A)
        (Value.ofMatrix_ne_integer B)]
      have hGives :=
        NumMatrix.combine_ints hSub .subtract (· - ·)
          (shape_ofMatrix_eq A B)
      rw [Grid.zipWith_ofMatrix] at hGives
      exact hGives.map Value.matrix
  | matrixProduct A B =>
      rw [representable_iff_of_arrays (by simp)
        (Value.ofMatrix_ne_integer A)
        (Value.ofMatrix_ne_integer B)]
      have hGives :=
        NumMatrix.product_ints (Grid.wellFormed_ofMatrix A)
          (Grid.wellFormed_ofMatrix B)
          (Grid.height_ofMatrix B).symm
      rw [Grid.product_ofMatrix] at hGives
      exact hGives.map Value.matrix
  | matrixVector A v =>
      rw [representable_iff_of_arrays (by simp)
        (Value.ofMatrix_ne_integer A)
        (Value.ofVector_ne_integer v)]
      have hGives :=
        NumMatrix.apply_ints (Grid.wellFormed_ofMatrix A)
          (List.length_ofFn (f := v)).symm
      rw [Grid.apply_ofMatrix] at hGives
      exact hGives.map Value.vector
  | matrixTimes A k =>
      rw [representable_times_iff
        (Value.ofMatrix_ne_integer A)]
      have hGives := Entries.scale_ints (Grid.ofMatrix A) k
      rw [map_mul_ofMatrix] at hGives
      exact hGives.map Value.matrix
  | timesMatrix k A =>
      rw [representable_timesArray_iff
        (Value.ofMatrix_ne_integer A)]
      have hGives := Entries.scale_ints (Grid.ofMatrix A) k
      rw [map_mul_ofMatrix] at hGives
      exact hGives.map Value.matrix
  | matrixQuotient A k =>
      rw [representable_quotient_iff
        (Value.ofMatrix_ne_integer A)]
      have hGives := Entries.divide_ints hStored k
      have hEntries :
          Shaped.map (Int.fdiv · k) (Grid.ofMatrix A) =
            Grid.ofMatrix (A.map (Int.fdiv · k)) :=
        Grid.map_ofMatrix _ A
      rw [hEntries] at hGives
      exact hGives.map Value.matrix

/-
  Integer array arithmetic never wraps: an operator gives a
  value just when its exact result can be represented, and
  the value is that result. Otherwise there is a fault.
-/
theorem apply_eq_ok_iff_representable
    {op : BinaryOp}
    {l r : Value}
    (hCompatible : Compatible op l r)
    (hStored : l.Stored) :
    (∃ e, Exact op l r e) ∧
      ∀ e, Exact op l r e →
        (∀ v, apply op l r = .ok v ↔
          v = e ∧ Representable op l r e) ∧
        (¬Representable op l r e →
          ∃ f, apply op l r = .error f) := by
  refine ⟨hCompatible.exists_exact, ?_⟩
  intro e hExact
  have hGives := givesWhen_representable hExact hStored
  refine ⟨?_, hGives.2⟩
  intro v
  exact hGives.eq_ok_iff

/-
  A sum of products that leaves the range of storage on the
  way and ends at its greatest integer.
-/
theorem apply_eq_ok_iff_representable_dot :
    Compatible .multiply
        (.vector (.ints [2 ^ 62, 2 ^ 62, -1]))
        (.vector (.ints [1, 1, 1])) ∧
      Value.Stored (.vector (.ints [2 ^ 62, 2 ^ 62, -1])) ∧
      apply .multiply
          (.vector (.ints [2 ^ 62, 2 ^ 62, -1]))
          (.vector (.ints [1, 1, 1])) =
        .ok (.integer Storage.greatest) := by
  have hCompatible :
      Compatible .multiply
        (.vector (.ints [2 ^ 62, 2 ^ 62, -1]))
        (.vector (.ints [1, 1, 1])) :=
    .vectors (by decide) rfl
  have hStored :
      Value.Stored
        (.vector (.ints [2 ^ 62, 2 ^ 62, -1])) := by
    intro z hz
    revert z
    decide
  have hExact :
      Exact .multiply
        (.vector (.ints [2 ^ 62, 2 ^ 62, -1]))
        (.vector (.ints [1, 1, 1]))
        (.integer Storage.greatest) :=
    .dotProduct ![2 ^ 62, 2 ^ 62, -1] ![1, 1, 1]
  refine ⟨hCompatible, hStored, ?_⟩
  have hApply :=
    (apply_eq_ok_iff_representable hCompatible hStored).2 _
      hExact
  refine (hApply.1 _).2 ⟨rfl, ?_, ?_, ?_⟩
  · decide
  · simp
  · simp

end Binary

end StackCalc
