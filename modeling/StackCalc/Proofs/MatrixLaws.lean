import StackCalc.Proofs.ArrayShapes
import StackCalc.Proofs.Dispatch
import StackCalc.Proofs.MatrixPowers

/-
  The laws of matrix products and transposes, in sequences
  of steps.

  A calculation pushes values and carries out operators. On
  integer matrices a product is that of linear algebra or a
  fault, so calculations that are equal by the laws of
  linear algebra end with one stack. With transposes even
  the faults agree, since a matrix and its transpose hold
  the same integers.

  Main declarations:
    * `Run.calculate`
    * `Binary.multiply_matrices_iff`
    * `Binary.multiply_vector_iff`
    * `Run.calculate_transposes`
    * `Run.calculate_transposed_product`
    * `Run.calculate_matrix_laws`
-/

------------------------------------------------------------
-- Calculations
------------------------------------------------------------

namespace StackCalc

namespace Run

/- A step: push a value or carry out an operator. -/
inductive Step where
  | push (v : Value)
  | operate (op : Operator)

namespace Step

/- Push an integer matrix. -/
abbrev matrix (g : Grid ℤ) : Step :=
  push (.matrix (.ints g))

/- Push an integer vector. -/
abbrev vector (zs : List ℤ) : Step :=
  push (.vector (.ints zs))

/- Multiply the top two values. -/
abbrev times : Step :=
  operate (.binary .multiply)

/- Transpose the top value. -/
abbrev transpose : Step :=
  operate (.unary .transpose)

end Step

/- Take steps one after another, each at one depth. -/
def calculate
    (depth : Nat) :
    List Step → Stack → Outcome
  | [], s => .ok s
  | .push v :: steps, s => calculate depth steps (v :: s)
  | .operate op :: steps, s =>
      match dispatch depth op.name s with
      | .ok s' => calculate depth steps s'
      | .error f => .error f

variable
  {depth : Nat}
  {steps : List Step}
  {s s' : Stack}

theorem calculate_nil_iff :
    calculate depth [] s = .ok s' ↔ s' = s := by
  rw [calculate, Except.ok.injEq, eq_comm]

/- Products need a result to go on with. -/
theorem calculate_times_iff
    {l r : Value} :
    calculate (depth + 1) (.times :: steps) (r :: l :: s) =
        .ok s' ↔
      ∃ v, Binary.apply .multiply l r = .ok v ∧
        calculate (depth + 1) steps (v :: s) = .ok s' := by
  have hDispatch :
      dispatch (depth + 1)
          (Operator.binary .multiply).name (r :: l :: s) =
        binary .multiply l r s :=
    dispatch_name (.binary .multiply) depth (r :: l :: s)
  rw [calculate, hDispatch, binary]
  cases Binary.apply .multiply l r with
  | ok v =>
      simp
  | error f =>
      simp [failing]

/- Matrices can always be transposed. -/
theorem calculate_transpose
    (m : NumMatrix) :
    calculate (depth + 1) (.transpose :: steps)
        (.matrix m :: s) =
      calculate (depth + 1) steps
        (.matrix m.transpose :: s) := by
  have hDispatch :
      dispatch (depth + 1)
          (Operator.unary .transpose).name (.matrix m :: s) =
        .ok (.matrix m.transpose :: s) :=
    dispatch_name (.unary .transpose) depth (.matrix m :: s)
  rw [calculate, hDispatch]

end Run

end StackCalc

------------------------------------------------------------
-- Products
------------------------------------------------------------

namespace StackCalc

open scoped Matrix

open Storage (Holds holds_iff)

theorem Grid.exists_matrix
    {α : Type}
    {g : Grid α}
    (h : g.WellFormed) :
    ∃ m n, ∃ A : Matrix (Fin m) (Fin n) α,
      g = ofMatrix A :=
  ⟨_, _, exists_eq_ofMatrix h rfl rfl⟩

theorem Storage.holds_transpose_iff
    {m n : ℕ}
    {A : Matrix (Fin m) (Fin n) ℤ} :
    Holds Aᵀ ↔ Holds A :=
  ⟨fun h i j => h j i, fun h i j => h j i⟩

namespace Binary

variable
  {l m m' n : ℕ}
  {v : Value}

/- A product is exact and can be stored. -/
theorem multiply_matrices_iff
    {A : Matrix (Fin l) (Fin m) ℤ}
    {B : Matrix (Fin m) (Fin n) ℤ} :
    apply .multiply (.ofMatrix A) (.ofMatrix B) = .ok v ↔
      v = .ofMatrix (A * B) ∧ Holds (A * B) := by
  have hGives :=
    NumMatrix.product_ints (Grid.wellFormed_ofMatrix A)
      (Grid.wellFormed_ofMatrix B)
      (Grid.height_ofMatrix B).symm
  rw [Grid.product_ofMatrix] at hGives
  rw [holds_iff]
  exact (hGives.map Value.matrix).eq_ok_iff

theorem multiply_vector_iff
    {A : Matrix (Fin l) (Fin m) ℤ}
    {u : Fin m → ℤ} :
    apply .multiply (.ofMatrix A) (.ofVector u) = .ok v ↔
      v = .ofVector (A *ᵥ u) ∧
        ∀ z ∈ List.ofFn (A *ᵥ u), Storage.fits z = true := by
  have hGives :=
    NumMatrix.apply_ints (Grid.wellFormed_ofMatrix A)
      (List.length_ofFn (f := u)).symm
  rw [Grid.apply_ofMatrix] at hGives
  exact (hGives.map Value.vector).eq_ok_iff

/- Only what goes together is multiplied. -/
theorem inner_eq_of_matrices
    {A : Matrix (Fin l) (Fin m) ℤ}
    {B : Matrix (Fin m') (Fin n) ℤ}
    (h : apply .multiply (.ofMatrix A) (.ofMatrix B) =
      .ok v) :
    m = m' := by
  by_contra hNe
  have hInner :
      NumMatrix.width (.ints (Grid.ofMatrix A)) ≠
        NumMatrix.height (.ints (Grid.ofMatrix B)) := by
    rw [NumMatrix.height, Grid.height_ofMatrix]
    exact hNe
  have hProduct :
      (NumMatrix.product (.ints (Grid.ofMatrix A))
        (.ints (Grid.ofMatrix B))).map Value.matrix = .ok v :=
    h
  rw [NumMatrix.product, if_pos hInner] at hProduct
  simp [Except.map] at hProduct

theorem inner_eq_of_vector
    {A : Matrix (Fin l) (Fin m) ℤ}
    {u : Fin m' → ℤ}
    (h : apply .multiply (.ofMatrix A) (.ofVector u) =
      .ok v) :
    m = m' := by
  by_contra hNe
  have hInner :
      NumMatrix.width (.ints (Grid.ofMatrix A)) ≠
        NumVector.length (.ints (List.ofFn u)) := by
    rw [NumVector.length, List.length_ofFn]
    exact hNe
  have hApply :
      (NumMatrix.apply (.ints (Grid.ofMatrix A))
        (.ints (List.ofFn u))).map Value.vector = .ok v :=
    h
  rw [NumMatrix.apply, if_pos hInner] at hApply
  simp [Except.map] at hApply

end Binary

end StackCalc

------------------------------------------------------------
-- Products In Calculations
------------------------------------------------------------

namespace StackCalc

open scoped Matrix

open Storage (Holds)

namespace Run

variable
  {depth : Nat}
  {steps : List Step}
  {s s' : Stack}
  {l m m' n : ℕ}

theorem inner_eq_of_calculate_matrices
    {A : Matrix (Fin l) (Fin m) ℤ}
    {B : Matrix (Fin m') (Fin n) ℤ}
    (h : calculate (depth + 1) (.times :: steps)
      (.matrix (.ints (.ofMatrix B)) ::
        .matrix (.ints (.ofMatrix A)) :: s) = .ok s') :
    m = m' := by
  rcases calculate_times_iff.1 h with ⟨v, hProduct, -⟩
  exact Binary.inner_eq_of_matrices hProduct

theorem inner_eq_of_calculate_vector
    {A : Matrix (Fin l) (Fin m) ℤ}
    {u : Fin m' → ℤ}
    (h : calculate (depth + 1) (.times :: steps)
      (.vector (.ints (List.ofFn u)) ::
        .matrix (.ints (.ofMatrix A)) :: s) = .ok s') :
    m = m' := by
  rcases calculate_times_iff.1 h with ⟨v, hProduct, -⟩
  exact Binary.inner_eq_of_vector hProduct

/- A calculation goes on with a product that is held. -/
theorem calculate_matrices_iff
    {A : Matrix (Fin l) (Fin m) ℤ}
    {B : Matrix (Fin m) (Fin n) ℤ} :
    calculate (depth + 1) (.times :: steps)
        (.matrix (.ints (.ofMatrix B)) ::
          .matrix (.ints (.ofMatrix A)) :: s) = .ok s' ↔
      Holds (A * B) ∧
        calculate (depth + 1) steps
          (.matrix (.ints (.ofMatrix (A * B))) :: s) =
            .ok s' := by
  rw [calculate_times_iff]
  constructor
  · rintro ⟨v, hProduct, hRest⟩
    rcases Binary.multiply_matrices_iff.1 hProduct with
      ⟨rfl, hHolds⟩
    exact ⟨hHolds, hRest⟩
  · rintro ⟨hHolds, hRest⟩
    exact ⟨_, Binary.multiply_matrices_iff.2 ⟨rfl, hHolds⟩,
      hRest⟩

/- It goes on with the product of a matrix and a vector. -/
theorem calculate_of_vector
    {A : Matrix (Fin l) (Fin m) ℤ}
    {u : Fin m → ℤ}
    (h : calculate (depth + 1) (.times :: steps)
      (.vector (.ints (List.ofFn u)) ::
        .matrix (.ints (.ofMatrix A)) :: s) = .ok s') :
    calculate (depth + 1) steps
      (.vector (.ints (List.ofFn (A *ᵥ u))) :: s) =
        .ok s' := by
  rcases calculate_times_iff.1 h with ⟨v, hProduct, hRest⟩
  rcases Binary.multiply_vector_iff.1 hProduct with ⟨rfl, -⟩
  exact hRest

end Run

end StackCalc

------------------------------------------------------------
-- Laws
------------------------------------------------------------

namespace StackCalc

open scoped Matrix

namespace Run

variable
  {depth : Nat}
  {s s₁ s₂ : Stack}
  {a b c : Grid ℤ}
  {zs : List ℤ}

/- Transposing twice changes nothing. -/
theorem calculate_transposes
    (ha : a.WellFormed) :
    calculate (depth + 1)
        [.matrix a, .transpose, .transpose] s =
      .ok (.matrix (.ints a) :: s) := by
  rcases Grid.exists_matrix ha with ⟨m, n, A, rfl⟩
  rw [calculate, calculate_transpose, calculate_transpose,
    NumMatrix.transpose, NumMatrix.transpose,
    Grid.transpose_ofMatrix, Grid.transpose_ofMatrix,
    Matrix.transpose_transpose, calculate]

/-
  The transpose of a product is the product of the
  transposes in reverse. There is one just when there is
  the other, as both hold the same integers.
-/
theorem calculate_transposed_product
    (ha : a.WellFormed)
    (hb : b.WellFormed) :
    calculate (depth + 1)
        [.matrix a, .matrix b, .times, .transpose] s =
          .ok s₁ ↔
      calculate (depth + 1)
        [.matrix b, .transpose, .matrix a, .transpose,
          .times] s = .ok s₁ := by
  rcases Grid.exists_matrix ha with ⟨l, m, A, rfl⟩
  rcases Grid.exists_matrix hb with ⟨m', n, B, rfl⟩
  rw [calculate, calculate, calculate, calculate_transpose,
    calculate, calculate_transpose, NumMatrix.transpose,
    NumMatrix.transpose, Grid.transpose_ofMatrix,
    Grid.transpose_ofMatrix]
  by_cases hInner : m = m'
  · subst hInner
    rw [calculate_matrices_iff, calculate_matrices_iff,
      calculate_transpose, NumMatrix.transpose,
      Grid.transpose_ofMatrix, Matrix.transpose_mul,
      ← Storage.holds_transpose_iff, Matrix.transpose_mul]
  · constructor
    · intro h
      exact absurd (inner_eq_of_calculate_matrices h) hInner
    · intro h
      exact absurd (inner_eq_of_calculate_matrices h).symm
        hInner

/- Products of three matrices are associative. -/
theorem calculate_product_assoc
    (ha : a.WellFormed)
    (hb : b.WellFormed)
    (hc : c.WellFormed)
    (hLeft : calculate (depth + 1)
      [.matrix a, .matrix b, .times, .matrix c, .times] s =
        .ok s₁)
    (hRight : calculate (depth + 1)
      [.matrix a, .matrix b, .matrix c, .times, .times] s =
        .ok s₂) :
    ∃ g, s₁ = .matrix (.ints g) :: s ∧ s₂ = s₁ := by
  rcases Grid.exists_matrix ha with ⟨l, m, A, rfl⟩
  rcases Grid.exists_matrix hb with ⟨m', n, B, rfl⟩
  rcases Grid.exists_matrix hc with ⟨n', p, C, rfl⟩
  rw [calculate, calculate] at hLeft
  obtain rfl := inner_eq_of_calculate_matrices hLeft
  rw [calculate_matrices_iff, calculate] at hLeft
  obtain rfl := inner_eq_of_calculate_matrices hLeft.2
  rw [calculate_matrices_iff, calculate_nil_iff] at hLeft
  rw [calculate, calculate, calculate,
    calculate_matrices_iff, calculate_matrices_iff,
    calculate_nil_iff] at hRight
  refine ⟨_, hLeft.2.2, ?_⟩
  rw [hLeft.2.2, hRight.2.2, Matrix.mul_assoc]

/- So are products of two matrices and a vector. -/
theorem calculate_product_vector
    (ha : a.WellFormed)
    (hb : b.WellFormed)
    (hLeft : calculate (depth + 1)
      [.matrix a, .matrix b, .times, .vector zs, .times] s =
        .ok s₁)
    (hRight : calculate (depth + 1)
      [.matrix a, .matrix b, .vector zs, .times, .times] s =
        .ok s₂) :
    ∃ ws, s₁ = .vector (.ints ws) :: s ∧ s₂ = s₁ := by
  rcases Grid.exists_matrix ha with ⟨l, m, A, rfl⟩
  rcases Grid.exists_matrix hb with ⟨m', n, B, rfl⟩
  rcases exists_eq_ofFn (Eq.refl zs.length) with ⟨u, hu⟩
  generalize zs.length = n' at u hu
  subst hu
  rw [calculate, calculate] at hLeft
  obtain rfl := inner_eq_of_calculate_matrices hLeft
  rw [calculate_matrices_iff, calculate] at hLeft
  obtain rfl := inner_eq_of_calculate_vector hLeft.2
  have hFirst := calculate_of_vector hLeft.2
  rw [calculate_nil_iff] at hFirst
  rw [calculate, calculate, calculate] at hRight
  have hSecond := calculate_of_vector
    (calculate_of_vector hRight)
  rw [calculate_nil_iff] at hSecond
  refine ⟨_, hFirst, ?_⟩
  rw [hFirst, hSecond, Matrix.mulVec_mulVec]

/-
  Products and transposes of integer matrices of any shape
  obey the laws of linear algebra. A transposed product is
  a fault just when the product of the transposes is.
-/
theorem calculate_matrix_laws
    (ha : a.WellFormed)
    (hb : b.WellFormed)
    (hc : c.WellFormed)
    (zs : List ℤ)
    (depth : Nat)
    (s : Stack) :
    calculate (depth + 1)
        [.matrix a, .transpose, .transpose] s =
          .ok (.matrix (.ints a) :: s) ∧
      (∀ s₁,
        calculate (depth + 1)
            [.matrix a, .matrix b, .times, .transpose] s =
              .ok s₁ ↔
          calculate (depth + 1)
            [.matrix b, .transpose, .matrix a, .transpose,
              .times] s = .ok s₁) ∧
      (∀ s₁ s₂,
        calculate (depth + 1)
            [.matrix a, .matrix b, .times, .matrix c,
              .times] s = .ok s₁ →
          calculate (depth + 1)
            [.matrix a, .matrix b, .matrix c, .times,
              .times] s = .ok s₂ →
            ∃ g, s₁ = .matrix (.ints g) :: s ∧ s₂ = s₁) ∧
      (∀ s₁ s₂,
        calculate (depth + 1)
            [.matrix a, .matrix b, .times, .vector zs,
              .times] s = .ok s₁ →
          calculate (depth + 1)
            [.matrix a, .matrix b, .vector zs, .times,
              .times] s = .ok s₂ →
            ∃ ws, s₁ = .vector (.ints ws) :: s ∧
              s₂ = s₁) :=
  ⟨calculate_transposes ha,
    fun _ => calculate_transposed_product ha hb,
    fun _ _ => calculate_product_assoc ha hb hc,
    fun _ _ => calculate_product_vector ha hb⟩

/-
  Two rows without entries times three columns without
  entries: all products are zero, and the transposes have
  them too.
-/
theorem calculate_matrix_laws_empty :
    Grid.WellFormed (⟨0, [[], []]⟩ : Grid ℤ) ∧
      Grid.WellFormed (⟨3, []⟩ : Grid ℤ) ∧
      Grid.WellFormed (⟨1, [[1], [2], [3]]⟩ : Grid ℤ) ∧
      calculate 1
          [.matrix ⟨3, []⟩, .transpose,
            .matrix ⟨0, [[], []]⟩, .transpose, .times] [] =
        .ok [.matrix
          (.ints ⟨2, [[0, 0], [0, 0], [0, 0]]⟩)] := by
  have ha : Grid.WellFormed (⟨0, [[], []]⟩ : Grid ℤ) := by
    decide
  have hb : Grid.WellFormed (⟨3, []⟩ : Grid ℤ) := by
    decide
  have hc :
      Grid.WellFormed (⟨1, [[1], [2], [3]]⟩ : Grid ℤ) := by
    decide
  have hLaws := calculate_matrix_laws ha hb hc [4, 5, 6] 0 []
  exact ⟨ha, hb, hc, (hLaws.2.1 _).1 rfl⟩

end Run

end StackCalc
