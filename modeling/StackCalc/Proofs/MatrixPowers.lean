import Mathlib.Algebra.Order.BigOperators.Group.Finset
import StackCalc.Proofs.ExactResults
import StackCalc.Proofs.WrittenInteger

/-
  Powers of integer matrices are exact or fail.

  A power is worked out twice, by repeated squaring: once
  exactly, where all that is multiplied on the way must fit
  into storage, and once in words. What is multiplied on
  the way to a power is itself a power of the matrix, with
  a smaller exponent. So the exact power is given when all
  powers up to it fit, and there is an arithmetic fault
  when it does not fit itself.

  Main declarations:
    * `Storage.Holds`
    * `Grid.rowProducts_ofMatrix`
    * `NumMatrix.gridPower_toWords`
    * `NumMatrix.StoredOr`
    * `NumMatrix.checkedProduct_storedOr`
    * `NumMatrix.exactPowerFrom_storedOr`
    * `NumMatrix.power_cases`
    * `Binary.apply_power_exact`
-/

------------------------------------------------------------
-- Stored Matrices
------------------------------------------------------------

namespace StackCalc

namespace Storage

variable
  {m n : ℕ}
  {A : Matrix (Fin m) (Fin n) ℤ}

/- All entries of a matrix can be stored. -/
def Holds (A : Matrix (Fin m) (Fin n) ℤ) : Prop :=
  ∀ i j, fits (A i j) = true

theorem mem_flatten_rows_iff
    {z : ℤ} :
    z ∈ (Grid.ofMatrix A).rows.flatten ↔
      ∃ i j, A i j = z := by
  simp only [Grid.ofMatrix, List.mem_flatten,
    List.mem_ofFn]
  constructor
  · rintro ⟨row, ⟨i, rfl⟩, hz⟩
    rcases List.mem_ofFn.1 hz with ⟨j, rfl⟩
    exact ⟨i, j, rfl⟩
  · rintro ⟨i, j, rfl⟩
    exact ⟨_, ⟨i, rfl⟩, List.mem_ofFn.2 ⟨j, rfl⟩⟩

theorem holds_iff :
    Holds A ↔
      ∀ z ∈ (Grid.ofMatrix A).rows.flatten,
        fits z = true := by
  constructor
  · intro h z hz
    rcases mem_flatten_rows_iff.1 hz with ⟨i, j, rfl⟩
    exact h i j
  · intro h i j
    exact h _ (mem_flatten_rows_iff.2 ⟨i, j, rfl⟩)

theorem holds_one
    (d : ℕ) :
    Holds (1 : Matrix (Fin d) (Fin d) ℤ) := by
  intro i j
  rw [Matrix.one_apply]
  split
  · rfl
  · rfl

/- How large an integer in storage can be. -/
theorem abs_le_of_fits
    {z : ℤ}
    (h : fits z = true) :
    |z| ≤ 2 ^ 63 := by
  rcases fits_iff.1 h with ⟨hLeast, hGreatest⟩
  unfold least at hLeast
  unfold greatest at hGreatest
  rw [abs_le]
  omega

end Storage

end StackCalc

------------------------------------------------------------
-- Grids Of Matrices
------------------------------------------------------------

namespace StackCalc

namespace Grid

variable {d : ℕ}

theorem identity_eq_ofMatrix
    (d : ℕ) :
    (identity d : Grid ℤ) =
      ofMatrix (1 : Matrix (Fin d) (Fin d) ℤ) := by
  simp only [identity, ofMatrix, Grid.mk.injEq, true_and]
  apply List.ext_getElem
  · simp
  · intro i hi _
    apply List.ext_getElem
    · simp
    · intro j hj _
      simp [Matrix.one_apply]

theorem toWords_identity
    (d : ℕ) :
    toWords (identity d : Grid ℤ) = identity d := by
  simp only [toWords, Shaped.map, map, identity,
    List.map_map, Function.comp_def, apply_ite Int64.ofInt]
  rfl

/- Rows side by side show the columns of their grid. -/
theorem sideBySide_rows
    {g : Grid ℤ}
    (h : g.WellFormed)
    (hRows : g.rows ≠ []) :
    sideBySide g.rows = g.columns := by
  rcases g with ⟨width, rows⟩
  cases rows with
  | nil =>
      exact absurd rfl hRows
  | cons row rows =>
      exact sideBySide_cons h

/-
  Without rows there are no columns to be seen, but then a
  square matrix has none.
-/
theorem rowProducts_ofMatrix
    (A B : Matrix (Fin d) (Fin d) ℤ) :
    rowProducts (ofMatrix A).rows (ofMatrix B).rows =
      (ofMatrix (A * B)).rows := by
  cases d with
  | zero =>
      rfl
  | succ d =>
      have hColumns :
          sideBySide (ofMatrix B).rows =
            (ofMatrix B).columns :=
        sideBySide_rows (wellFormed_ofMatrix B)
          (by simp [ofMatrix])
      rw [rowProducts, hColumns, ← product_ofMatrix]
      rfl

end Grid

end StackCalc

------------------------------------------------------------
-- Powers In Words
------------------------------------------------------------

namespace StackCalc

namespace NumMatrix

section Homomorphism

variable
  {α : Type}
  [Add α]
  [Mul α]
  [OfNat α 0]
  [OfNat α 1]
  {d : ℕ}
  {φ : Matrix (Fin d) (Fin d) ℤ → Grid α}
  (hOne : ∀ A, Grid.identity (φ A).width = φ 1)
  (hMul : ∀ A B, (φ A).product (φ B) = φ (A * B))

include hOne hMul

/-
  Squaring and multiplying the grids of matrices comes to
  a power, if products of the grids are the grids of the
  products. What is not there yet counts as one.
-/
theorem powerFrom_of_hom
    (R : Option (Matrix (Fin d) (Fin d) ℤ))
    (B : Matrix (Fin d) (Fin d) ℤ)
    (n : ℕ) :
    powerFrom (R.map φ) (φ B) n =
      φ (R.getD 1 * B ^ n) := by
  have hDefault
      (S : Option (Matrix (Fin d) (Fin d) ℤ))
      (B : Matrix (Fin d) (Fin d) ℤ) :
      (S.map φ).getD (Grid.identity (φ B).width) =
        φ (S.getD 1) := by
    cases S with
    | none =>
        exact hOne B
    | some A =>
        rfl
  induction n using Nat.strongRecOn generalizing R B with
  | ind n ih =>
      rw [powerFrom.eq_def]
      split
      · rename_i hn
        rw [hDefault, hn, pow_zero, mul_one]
      · rename_i hn
        generalize hNext :
          (if n % 2 = 1 then _ else R.map φ) = next
        have hSplit :
            B ^ n = B ^ (n % 2) * (B * B) ^ (n / 2) := by
          rw [← pow_two, ← pow_mul, ← pow_add,
            Nat.mod_add_div]
        obtain ⟨S, rfl, hValue⟩ :
            ∃ S : Option (Matrix (Fin d) (Fin d) ℤ),
              next = S.map φ ∧
                S.getD 1 = R.getD 1 * B ^ (n % 2) := by
          rcases Nat.mod_two_eq_zero_or_one n with
            hEven | hOdd
          · refine ⟨R, ?_, by simp [hEven]⟩
            simp [← hNext, hEven]
          · refine ⟨some (R.getD 1 * B), ?_, by simp [hOdd]⟩
            cases R with
            | none =>
                simp [← hNext, hOdd]
            | some A =>
                simp [← hNext, hOdd, hMul]
        rw [hSplit, ← mul_assoc, ← hValue]
        simp only
        split
        · rename_i hHalf
          rw [hDefault, hHalf, pow_zero, mul_one]
        · rw [hMul, ih (n / 2) (by omega)]

theorem gridPower_of_hom
    (A : Matrix (Fin d) (Fin d) ℤ)
    (n : ℕ) :
    gridPower (φ A) n = φ (A ^ n) := by
  unfold gridPower
  split
  · rename_i hThree
    rw [hMul, hMul, hThree, pow_succ, pow_two]
  · have hPower := powerFrom_of_hom hOne hMul none A n
    rwa [Option.getD_none, one_mul] at hPower

end Homomorphism

/- So it does in words, whatever wraps on the way. -/
theorem gridPower_toWords
    {d : ℕ}
    (A : Matrix (Fin d) (Fin d) ℤ)
    (n : ℕ) :
    gridPower (toWords (Grid.ofMatrix A)) n =
      toWords (Grid.ofMatrix (A ^ n)) := by
  refine gridPower_of_hom
    (φ := fun A => toWords (Grid.ofMatrix A)) ?_ ?_ A n
  · intro B
    rw [← Grid.identity_eq_ofMatrix, Grid.toWords_identity]
    rfl
  · intro B C
    rw [Grid.product_toWords, Grid.product_ofMatrix]

end NumMatrix

end StackCalc

------------------------------------------------------------
-- Checked Products
------------------------------------------------------------

namespace StackCalc

namespace NumMatrix

open Storage

variable
  {d : ℕ}
  {A B : Matrix (Fin d) (Fin d) ℤ}

/- An entry of a product sums up `d` products of entries. -/
theorem abs_mul_apply_le
    (hA : Holds A)
    (hB : Holds B)
    (i j : Fin d) :
    |(A * B) i j| ≤ d * (2 ^ 63 * 2 ^ 63) := by
  have hTerm (k : Fin d) :
      |A i k * B k j| ≤ 2 ^ 63 * 2 ^ 63 := by
    rw [abs_mul]
    exact mul_le_mul (abs_le_of_fits (hA i k))
      (abs_le_of_fits (hB k j)) (abs_nonneg _) (by decide)
  calc
    |(A * B) i j| = |∑ k, A i k * B k j| := by
      rw [Matrix.mul_apply]
    _ ≤ ∑ k, |A i k * B k j| :=
      Finset.abs_sum_le_sum_abs _ _
    _ ≤ ∑ _k : Fin d, 2 ^ 63 * 2 ^ 63 :=
      Finset.sum_le_sum fun k _ => hTerm k
    _ = d * (2 ^ 63 * 2 ^ 63) := by
      rw [Finset.sum_const, Finset.card_univ,
        Fintype.card_fin, nsmul_eq_mul]

/-
  An entry of a product of stored matrices can be told,
  even if it cannot be stored: no array has more than
  `2 ^ 63` rows.
-/
theorem isShort_mul_apply
    (hSize : d < 2 ^ 63)
    (hA : Holds A)
    (hB : Holds B)
    (i j : Fin d) :
    Decimal.isShort ((A * B) i j) = true := by
  have hAbs := abs_mul_apply_le hA hB i j
  have hLt : ((A * B) i j).natAbs < Nat.pow 10 57 := by
    rw [Int.abs_eq_natAbs] at hAbs
    rw [Nat.pow_eq]
    omega
  have hPow : ∀ k, 57 ≤ k → Nat.pow 10 57 ≤ Nat.pow 10 k :=
    fun _ hk => Nat.pow_le_pow_right (by decide) hk
  exact decide_eq_true
    (Nat.lt_of_lt_of_le hLt
      (hPow Decimal.maxDigits (by decide)))

/- The products of rows, if they can be stored. -/
def checkedProduct
    (left right : List (List ℤ)) :
    Except Fault (List (List ℤ)) := do
  requireStored .power (rowProducts left right).flatten
  return rowProducts left right

/-
  The rows of a matrix that can be stored, or else, if `p`
  holds, a fault that tells an integer that cannot.
-/
def StoredOr
    (p : Prop)
    (A : Matrix (Fin d) (Fin d) ℤ)
    (r : Except Fault (List (List ℤ))) : Prop :=
  (Holds A ∧ r = .ok (Grid.ofMatrix A).rows) ∨
    p ∧ ∃ z, fits z = false ∧
      r = .error (arithmeticFault .power (.overflow z))

/- A computation goes on with what it has come to so far. -/
theorem StoredOr.bind
    {p q : Prop}
    {r : Except Fault (List (List ℤ))}
    {next : List (List ℤ) → Except Fault (List (List ℤ))}
    (h : StoredOr p A r)
    (hFault : p → q)
    (hNext :
      Holds A →
        StoredOr q B (next (Grid.ofMatrix A).rows)) :
    StoredOr q B (r >>= next) := by
  rcases h with ⟨hHolds, rfl⟩ | ⟨hp, z, hUnfit, rfl⟩
  · exact hNext hHolds
  · exact .inr ⟨hFault hp, z, hUnfit, rfl⟩

/-
  The product of stored matrices is given if it can be
  stored itself.
-/
theorem checkedProduct_storedOr
    (hSize : d < 2 ^ 63)
    (hA : Holds A)
    (hB : Holds B) :
    StoredOr (¬ Holds (A * B)) (A * B)
      (checkedProduct (Grid.ofMatrix A).rows
        (Grid.ofMatrix B).rows) := by
  rw [checkedProduct, Grid.rowProducts_ofMatrix]
  by_cases hHolds : Holds (A * B)
  · refine .inl ⟨hHolds, ?_⟩
    rw [requireStored,
      firstUnfit?_eq_none_iff.2 (holds_iff.1 hHolds)]
    rfl
  · refine .inr ⟨hHolds, ?_⟩
    rcases requireStored_eq_error
        (mt holds_iff.2 hHolds) with
      ⟨z, hMem, hUnfit, hError⟩
    rcases mem_flatten_rows_iff.1 hMem with ⟨i, j, rfl⟩
    refine ⟨_, hUnfit, ?_⟩
    rw [hError, overflowFault,
      if_pos (isShort_mul_apply hSize hA hB i j)]
    rfl

end NumMatrix

end StackCalc

------------------------------------------------------------
-- Exact Powers
------------------------------------------------------------

namespace StackCalc

namespace NumMatrix

open Storage

/- What is multiplied by the base if `n` is odd. -/
def multiplied
    (result base : List (List ℤ))
    (n : ℕ) : Except Fault (List (List ℤ)) :=
  if n % 2 = 1 then checkedProduct result base
  else .ok result

/- Every product on the way to a power is checked. -/
theorem exactPowerFrom_eq
    {result base : List (List ℤ)}
    {n : ℕ}
    (hn : n ≠ 0) :
    exactPowerFrom result base n =
      (multiplied result base n >>= fun next =>
        if n / 2 = 0 then .ok next
        else
          checkedProduct base base >>= fun square =>
            exactPowerFrom next square (n / 2)) := by
  rw [exactPowerFrom, if_neg hn]
  by_cases hOdd : n % 2 = 1
  · simp only [hOdd, if_true, multiplied, checkedProduct,
      bind_assoc, pure_bind]
    rfl
  · simp only [hOdd, if_false, multiplied, checkedProduct,
      bind_assoc, pure_bind]
    rfl

variable
  {d : ℕ}
  {A : Matrix (Fin d) (Fin d) ℤ}
  {r b : ℕ}

theorem multiplied_storedOr
    (hSize : d < 2 ^ 63)
    (hResult : Holds (A ^ r))
    (hBase : Holds (A ^ b))
    (n : ℕ) :
    StoredOr (¬ Holds (A ^ (r + b * (n % 2))))
      (A ^ (r + b * (n % 2)))
      (multiplied (Grid.ofMatrix (A ^ r)).rows
        (Grid.ofMatrix (A ^ b)).rows n) := by
  unfold multiplied
  rcases Nat.mod_two_eq_zero_or_one n with hEven | hOdd
  · rw [hEven, mul_zero, add_zero]
    exact .inl ⟨hResult, rfl⟩
  · rw [hOdd, mul_one, pow_add]
    exact checkedProduct_storedOr hSize hResult hBase

/-
  From the power `r` of a matrix and its power `b` the
  computation comes to the power `r + b * n`, unless some
  power up to that cannot be stored.

  The exponent that it comes to is the same after a step as
  before. The base is squared only if it is needed again,
  so that no exponent on the way is greater.
-/
theorem exactPowerFrom_storedOr
    (hSize : d < 2 ^ 63)
    (hResult : Holds (A ^ r))
    (hBase : Holds (A ^ b))
    (n : ℕ) :
    StoredOr (∃ k ≤ r + b * n, ¬ Holds (A ^ k))
      (A ^ (r + b * n))
      (exactPowerFrom (Grid.ofMatrix (A ^ r)).rows
        (Grid.ofMatrix (A ^ b)).rows n) := by
  induction n using Nat.strongRecOn generalizing r b with
  | ind n ih =>
      by_cases hn : n = 0
      · rw [hn, mul_zero, add_zero, exactPowerFrom,
          if_pos rfl]
        exact .inl ⟨hResult, rfl⟩
      · have hSum :
            r + b * (n % 2) + (b + b) * (n / 2) =
              r + b * n := by
          conv_rhs => rw [← Nat.mod_add_div n 2]
          ring
        have hLe : r + b * (n % 2) ≤ r + b * n := by
          omega
        rw [exactPowerFrom_eq hn]
        refine (multiplied_storedOr hSize hResult hBase
          n).bind (fun h => ⟨_, hLe, h⟩) fun hNext => ?_
        by_cases hHalf : n / 2 = 0
        · rw [hHalf, mul_zero, add_zero] at hSum
          rw [if_pos hHalf, ← hSum]
          exact .inl ⟨hNext, rfl⟩
        · have hLe' : b + b ≤ r + b * n := by
            have hOnce := Nat.le_mul_of_pos_right (b + b)
              (Nat.pos_of_ne_zero hHalf)
            omega
          have hSquare :=
            checkedProduct_storedOr hSize hBase hBase
          rw [← pow_add] at hSquare
          rw [if_neg hHalf]
          refine hSquare.bind (fun h => ⟨_, hLe', h⟩)
            fun hSquare => ?_
          rw [← hSum]
          exact ih (n / 2) (by omega) hNext hSquare

/-
  A power of a stored matrix is exact, or else some power
  up to it cannot be stored.
-/
theorem power_cases
    (hSize : d < 2 ^ 63)
    (hStored : Holds A)
    (n : ℕ) :
    (Holds (A ^ n) ∧
      power (.ints (Grid.ofMatrix A)) n =
        .ok (.ints (Grid.ofMatrix (A ^ n)))) ∨
      (∃ k ≤ n, ¬ Holds (A ^ k)) ∧
        ∃ z, fits z = false ∧
          power (.ints (Grid.ofMatrix A)) n =
            .error
              (arithmeticFault .power (.overflow z)) := by
  have hPower :
      power (.ints (Grid.ofMatrix A)) n =
        (exactPowerFrom (Grid.ofMatrix (A ^ 0)).rows
            (Grid.ofMatrix (A ^ 1)).rows n >>= fun _ =>
          .ok (.ints (ofWords
            (gridPower (toWords (Grid.ofMatrix A)) n)))) := by
    have hSquare :
        ¬ height (.ints (Grid.ofMatrix A)) ≠
          width (.ints (Grid.ofMatrix A)) :=
      fun h => h (Grid.height_ofMatrix A)
    have hExponent : ¬ (n : ℤ) < 0 := by
      omega
    rw [power, if_neg hSquare, if_neg hExponent, pow_zero,
      pow_one, ← Grid.identity_eq_ofMatrix]
    rfl
  have hOne : Holds (A ^ 0) := by
    rw [pow_zero]
    exact holds_one d
  have hBase : Holds (A ^ 1) := by
    rwa [pow_one]
  have hExact := exactPowerFrom_storedOr hSize hOne hBase n
  rw [zero_add, one_mul] at hExact
  rw [hPower]
  rcases hExact with
    ⟨hHolds, hOk⟩ | ⟨hSome, z, hUnfit, hError⟩
  · refine .inl ⟨hHolds, ?_⟩
    rw [hOk, gridPower_toWords,
      ofWords_toWords (holds_iff.1 hHolds)]
    rfl
  · refine .inr ⟨hSome, z, hUnfit, ?_⟩
    rw [hError]
    rfl

end NumMatrix

end StackCalc

------------------------------------------------------------
-- Exact Or Failing
------------------------------------------------------------

namespace StackCalc

namespace Binary

open Storage

/-
  A power of a square integer matrix is exact if it is
  given. It is an arithmetic fault if its exact entries
  cannot all be stored, and it is given if those of all
  powers up to it can.
-/
theorem apply_power_exact
    {d : ℕ}
    {A : Matrix (Fin d) (Fin d) ℤ}
    (hSize : d < 2 ^ 63)
    (hStored : Holds A)
    (n : ℕ) :
    (∀ v, apply .power (.ofMatrix A) (.integer n) = .ok v →
        v = .ofMatrix (A ^ n)) ∧
      (¬ Holds (A ^ n) →
        ∃ z, fits z = false ∧
          apply .power (.ofMatrix A) (.integer n) =
            .error (arithmeticFault .power (.overflow z))) ∧
      ((∀ k ≤ n, Holds (A ^ k)) →
        apply .power (.ofMatrix A) (.integer n) =
          .ok (.ofMatrix (A ^ n))) := by
  have hApply :
      apply .power (.ofMatrix A) (.integer n) =
        (NumMatrix.power (.ints (Grid.ofMatrix A)) n).map
          Value.matrix :=
    rfl
  rw [hApply]
  rcases NumMatrix.power_cases hSize hStored n with
    ⟨hHolds, hOk⟩ | ⟨⟨k, hk, hSome⟩, z, hUnfit, hError⟩
  · rw [hOk]
    refine ⟨?_, ?_, fun _ => rfl⟩
    · intro v hv
      exact (Except.ok.inj hv).symm
    · intro hNot
      exact absurd hHolds hNot
  · rw [hError]
    refine ⟨?_, fun _ => ⟨z, hUnfit, rfl⟩, ?_⟩
    · intro v hv
      simp [Except.map] at hv
    · intro hAll
      exact absurd (hAll k hk) hSome

/- A power that comes to the least integer of storage. -/
theorem apply_power_exact_least :
    2 < 2 ^ 63 ∧
      Holds (Matrix.diagonal ![-2 ^ 21, 1]) ∧
      apply .power
          (.ofMatrix (Matrix.diagonal ![-2 ^ 21, 1]))
          (.integer 3) =
        .ok (.ofMatrix (Matrix.diagonal ![least, 1])) := by
  have hSize : 2 < 2 ^ 63 := by
    decide
  have hPow (k : ℕ) :
      Matrix.diagonal ![-2 ^ 21, 1] ^ k =
        Matrix.diagonal ![(-2 ^ 21 : ℤ) ^ k, 1] := by
    rw [Matrix.diagonal_pow]
    congr 1
    funext i
    fin_cases i
    · rfl
    · exact one_pow k
  have hHolds (z : ℤ) (hz : fits z = true) :
      Holds (Matrix.diagonal ![z, 1]) := by
    intro i j
    rw [Matrix.diagonal_apply]
    split
    · fin_cases i
      · exact hz
      · rfl
    · rfl
  have hStored : Holds (Matrix.diagonal ![-2 ^ 21, 1]) :=
    hHolds _ (by decide)
  refine ⟨hSize, hStored, ?_⟩
  rcases apply_power_exact hSize hStored 3 with
    ⟨-, -, hGiven⟩
  rw [hPow 3] at hGiven
  apply hGiven
  intro k hk
  rw [hPow]
  apply hHolds
  revert k
  decide

end Binary

end StackCalc
