import StackCalc.Proofs.LinearAlgebra

/-
  Shapes of computed grids.

  Every operation on grids gives rows of one length again.
  Grids of the right shape are matrices, which settles what
  works entry by entry. Elimination makes each row shorter
  than the one before, and solving the rows makes them all
  as long as the part beside the matrix.

  Main declarations:
    * `Grid.transpose_ofMatrix`
    * `Grid.wellFormed_transpose`
    * `Grid.wellFormed_zipWith`
    * `Grid.wellFormed_gridPower`
    * `Elimination.Staircase`
    * `Grid.wellFormed_inverse`
-/

------------------------------------------------------------
-- Entry By Entry
------------------------------------------------------------

namespace StackCalc

open scoped Matrix

namespace Grid

variable {α β γ : Type}

/- The columns of a matrix are the rows of its transpose. -/
theorem transpose_ofMatrix
    {m n : ℕ}
    (A : Matrix (Fin m) (Fin n) α) :
    (ofMatrix A).transpose = ofMatrix Aᵀ := by
  rw [transpose, height_ofMatrix, columns_ofMatrix]
  rfl

theorem wellFormed_transpose
    {g : Grid α}
    (h : g.WellFormed) :
    g.transpose.WellFormed := by
  rcases exists_eq_ofMatrix h rfl rfl with ⟨A, hA⟩
  rw [hA, transpose_ofMatrix]
  exact wellFormed_ofMatrix Aᵀ

/- Columns have no entries but those of the rows. -/
theorem mem_of_mem_transpose
    {g : Grid α}
    {a : α}
    (h : a ∈ g.transpose.toList) :
    a ∈ g.toList := by
  rcases List.mem_flatten.1 h with ⟨column, hColumn, ha⟩
  rcases List.mem_map.1 hColumn with ⟨j, -, rfl⟩
  rcases List.mem_filterMap.1 ha with ⟨row, hRow, hEntry⟩
  exact List.mem_flatten.2
    ⟨row, hRow, List.mem_of_getElem? hEntry⟩

theorem wellFormed_zipWith
    (f : α → β → γ)
    {g : Grid α}
    {h : Grid β}
    (hg : g.WellFormed)
    (hh : h.WellFormed)
    (hHeight : g.height = h.height)
    (hWidth : g.width = h.width) :
    (g.zipWith f h).WellFormed := by
  generalize hm : h.height = m at hHeight
  generalize hn : h.width = n at hWidth
  rcases exists_eq_ofMatrix hg hHeight hWidth with ⟨A, rfl⟩
  rcases exists_eq_ofMatrix hh hm hn with ⟨B, rfl⟩
  rw [zipWith_ofMatrix]
  exact wellFormed_ofMatrix _

end Grid

end StackCalc

------------------------------------------------------------
-- Powers
------------------------------------------------------------

namespace StackCalc

section Power

variable
  {α : Type}
  [OfNat α 0]
  [OfNat α 1]

theorem Grid.wellFormed_identity
    (n : ℕ) :
    (Grid.identity n : Grid α).WellFormed := by
  intro row hRow
  rcases List.mem_map.1 hRow with ⟨i, -, rfl⟩
  simp [Grid.identity]

variable
  [Add α]
  [Mul α]

/-
  Squaring and multiplying keep the shape. What was
  multiplied so far may not be there yet.
-/
theorem NumMatrix.wellFormed_powerFrom
    {result : Option (Grid α)}
    {base : Grid α}
    {n : ℕ}
    (hResult : ∀ r ∈ result, r.WellFormed)
    (hBase : base.WellFormed) :
    (powerFrom result base n).WellFormed := by
  have hDefault (k : ℕ) {r : Option (Grid α)}
      (hr : ∀ g ∈ r, g.WellFormed) :
      (r.getD (Grid.identity k)).WellFormed := by
    cases r with
    | none =>
        exact Grid.wellFormed_identity k
    | some g =>
        exact hr g rfl
  fun_induction powerFrom result base n with
  | case1 =>
      exact hDefault _ hResult
  | case2 result base n hn next hHalf =>
      have hNext : ∀ g ∈ next, g.WellFormed := by
        grind [Grid.wellFormed_product]
      exact hDefault _ hNext
  | case3 result base n hn next hHalf ih =>
      have hNext : ∀ g ∈ next, g.WellFormed := by
        grind [Grid.wellFormed_product]
      exact ih hNext (Grid.wellFormed_product base base)

theorem NumMatrix.wellFormed_gridPower
    {g : Grid α}
    (h : g.WellFormed)
    (n : ℕ) :
    (gridPower g n).WellFormed := by
  unfold gridPower
  split
  · exact Grid.wellFormed_product _ g
  · exact wellFormed_powerFrom (by simp) h

end Power

end StackCalc

------------------------------------------------------------
-- Elimination
------------------------------------------------------------

namespace StackCalc

namespace Elimination

/-
  Rows of which each is one entry shorter than the one
  before. After its first entry the last row has `m` more.
-/
def Staircase
    (m : ℕ) :
    List Row → Prop
  | [] => True
  | row :: rows =>
      row.length = rows.length + 1 + m ∧ Staircase m rows

/- The pivot is one of the rows. -/
theorem pivotAmong_mem
    (first : Row)
    (rest : List Row) :
    (pivotAmong first rest).1 ∈ first :: rest := by
  have hFold (ps : List (Row × ℕ)) (best : Row × ℕ)
      (hps : ∀ p ∈ ps, p.1 ∈ first :: rest)
      (hBest : best.1 ∈ first :: rest) :
      (ps.foldl
        (fun best p =>
          if (lead best.1).abs < (lead p.1).abs then p
          else best) best).1 ∈ first :: rest := by
    induction ps generalizing best with
    | nil =>
        exact hBest
    | cons p ps ih =>
        rw [List.forall_mem_cons] at hps
        apply ih _ hps.2
        simp only
        split
        · exact hps.1
        · exact hBest
  apply hFold _ _ _ (by simp)
  rintro ⟨row, place⟩ hp
  exact (List.mem_zipIdx' hp).2 ▸ List.getElem_mem _

theorem length_exchanged
    (place : ℕ)
    (first : Row)
    (rest : List Row) :
    (exchanged place first rest).length = rest.length := by
  unfold exchanged
  split
  · rfl
  · simp

theorem mem_of_mem_exchanged
    {place : ℕ}
    {first row : Row}
    {rest : List Row}
    (h : row ∈ exchanged place first rest) :
    row ∈ first :: rest := by
  unfold exchanged at h
  split at h
  · exact List.mem_cons_of_mem _ h
  · rcases List.mem_or_eq_of_mem_set h with hMem | rfl
    · exact List.mem_cons_of_mem _ hMem
    · exact List.mem_cons_self

theorem length_less
    {factor : Float}
    {other row : Row}
    (h : row.length = other.length) :
    (less factor other row).length = row.length := by
  simp [less, h]

theorem length_cleared
    {m n : ℕ}
    {pivotRow row : Row}
    (hPivot : pivotRow.length = n + 1 + m)
    (hRow : row.length = n + 1 + m) :
    (cleared pivotRow row).length = n + m := by
  rw [cleared, length_less]
  · rw [List.length_tail, hRow]
    omega
  · simp only [List.length_tail, hPivot, hRow]

/-
  Elimination turns `n` rows, each with `m` entries more,
  into a staircase. Every step takes off one row and the
  first entry of the others.
-/
theorem staircase_triangular
    {m n : ℕ}
    {rows : List Row}
    (hCount : rows.length = n)
    (hRows : ∀ row ∈ rows, row.length = n + m) :
    Staircase m (triangular n rows) ∧
      (triangular n rows).length = n := by
  induction n generalizing rows with
  | zero =>
      simp [triangular, Staircase]
  | succ n ih =>
      cases rows with
      | nil =>
          simp at hCount
      | cons first rest =>
          have hRest : rest.length = n := by
            simpa using hCount
          rcases hPivot : pivotAmong first rest with
            ⟨pivot, place⟩
          have hLength : pivot.length = n + 1 + m := by
            apply hRows
            have hMem := pivotAmong_mem first rest
            rwa [hPivot] at hMem
          -- the other rows lose their first entry
          have hCleared :
              ∀ row ∈ (exchanged place first rest).map
                  (cleared pivot), row.length = n + m := by
            intro short hShort
            rcases List.mem_map.1 hShort with ⟨row, hRow, rfl⟩
            exact length_cleared hLength
              (hRows row (mem_of_mem_exchanged hRow))
          have hLater :=
            ih (by rw [List.length_map, length_exchanged, hRest])
              hCleared
          simp only [triangular, hPivot]
          refine ⟨⟨?_, hLater.1⟩, ?_⟩
          · rw [hLength, hLater.2]
          · rw [List.length_cons, hLater.2]

/- A row is solved by rows as long as what stands beside. -/
theorem length_solvedRow
    {m : ℕ}
    {row : Row}
    {later : List Row}
    (hRow : row.length = later.length + 1 + m)
    (hLater : ∀ r ∈ later, r.length = m) :
    (solvedRow row later).length = m := by
  have hFold (ps : List (Float × Row)) (beside : Row)
      (hps : ∀ p ∈ ps, p.2.length = m)
      (hBeside : beside.length = m) :
      (ps.foldr (fun p rest => less p.1 p.2 rest)
        beside).length = m := by
    induction ps with
    | nil =>
        exact hBeside
    | cons p ps ih =>
        rw [List.forall_mem_cons] at hps
        have hRest := ih hps.2
        rw [List.foldr_cons, length_less, hRest]
        rw [hRest, hps.1]
  simp only [solvedRow, List.length_map]
  apply hFold
  · rintro ⟨x, r⟩ hp
    exact hLater r (List.of_mem_zip hp).2
  · rw [List.length_drop, List.length_tail, hRow]
    omega

theorem length_of_mem_solved
    {m : ℕ}
    {rows : List Row}
    (h : Staircase m rows) :
    (solved rows).length = rows.length ∧
      ∀ row ∈ solved rows, row.length = m := by
  induction rows with
  | nil =>
      simp [solved]
  | cons row rows ih =>
      -- a row has as many coefficients as rows come after it
      rcases ih h.2 with ⟨hCount, hLater⟩
      have hFirst :
          (solvedRow row (solved rows)).length = m :=
        length_solvedRow (by rw [hCount]; exact h.1) hLater
      refine ⟨?_, ?_⟩
      · simpa [solved] using hCount
      · exact List.forall_mem_cons.2 ⟨hFirst, hLater⟩

theorem length_augmented
    {g : Grid Float}
    (hSquare : g.height = g.width) :
    (augmented g).length = g.width := by
  have hHeight : g.rows.length = g.width := hSquare
  simp [augmented, Grid.identity, hHeight]

theorem length_of_mem_augmented
    {g : Grid Float}
    (h : g.WellFormed)
    {row : Row}
    (hRow : row ∈ augmented g) :
    row.length = g.width + g.width := by
  rcases List.mem_iff_getElem.1 hRow with ⟨i, hi, rfl⟩
  simp only [augmented, List.getElem_zipWith,
    List.length_append]
  rw [h _ (List.getElem_mem _),
    Grid.wellFormed_identity _ _ (List.getElem_mem _)]
  rfl

end Elimination

namespace Grid

open Elimination

/- The inverse of a square grid has its shape. -/
theorem wellFormed_inverse
    {g inverse : Grid Float}
    (h : g.WellFormed)
    (hSquare : g.height = g.width)
    (hInverse : g.inverse? = some inverse) :
    inverse.WellFormed := by
  have hStairs :=
    staircase_triangular (length_augmented hSquare)
      fun _ => length_of_mem_augmented h
  unfold inverse? at hInverse
  split at hInverse
  · simp at hInverse
  · rw [← Option.some.inj hInverse]
    exact (length_of_mem_solved hStairs.1).2

end Grid

end StackCalc
