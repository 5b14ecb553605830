import StackCalc.Proofs.Words

/-
  Array arithmetic on integers is exact or fails.

  Every operation works out its result twice: exactly, to
  see whether all entries fit, and in words. This file
  shows for each operation that it gives the exact result
  when the entries fit, and a fault when they do not. The
  products check their entries by rows that know of no
  width, which matters where there are no rows.

  Main declarations:
    * `GivesWhen`
    * `givesWhen_requireStored`
    * `Entries.scale_ints`
    * `Entries.divide_ints`
    * `NumVector.combine_ints`
    * `NumVector.dot_ints`
    * `NumVector.cross_ints`
    * `NumMatrix.combine_ints`
    * `NumMatrix.product_ints`
    * `NumMatrix.apply_ints`
-/

------------------------------------------------------------
-- Results Under A Condition
------------------------------------------------------------

namespace StackCalc

section GivesWhen

variable {α β : Type}

/- A result that is there when `p` holds, else a fault. -/
def GivesWhen
    (p : Prop)
    (r : Except Fault α)
    (a : α) : Prop :=
  (p → r = .ok a) ∧ (¬p → ∃ f, r = .error f)

variable
  {p q : Prop}
  {r : Except Fault α}
  {a b : α}

theorem GivesWhen.congr
    (h : GivesWhen p r a)
    (hCondition : p ↔ q)
    (hResult : q → a = b) :
    GivesWhen q r b := by
  constructor
  · intro hq
    rw [h.1 (hCondition.2 hq), hResult hq]
  · intro hq
    exact h.2 (mt hCondition.1 hq)

theorem GivesWhen.eq_ok_iff
    (h : GivesWhen p r a) :
    r = .ok b ↔ b = a ∧ p := by
  by_cases hp : p
  · rw [h.1 hp]
    constructor
    · intro hOk
      exact ⟨(Except.ok.inj hOk).symm, hp⟩
    · rintro ⟨rfl, -⟩
      rfl
  · rcases h.2 hp with ⟨fault, hFault⟩
    rw [hFault]
    constructor
    · intro hOk
      simp at hOk
    · intro hBoth
      exact absurd hBoth.2 hp

theorem GivesWhen.map
    (h : GivesWhen p r a)
    (f : α → β) :
    GivesWhen p (r.map f) (f a) := by
  constructor
  · intro hp
    rw [h.1 hp]
    rfl
  · intro hp
    rcases h.2 hp with ⟨fault, hFault⟩
    rw [hFault]
    exact ⟨fault, rfl⟩

end GivesWhen

/-
  When entries do not fit, the fault is that of the first
  of them.
-/
theorem requireStored_eq_error
    {op : BinaryOp}
    {zs : List Int}
    (h : ¬∀ z ∈ zs, Storage.fits z = true) :
    ∃ z ∈ zs, Storage.fits z = false ∧
      requireStored op zs = .error (overflowFault op z) := by
  unfold requireStored
  cases hFirst : Storage.firstUnfit? zs with
  | none =>
      exact absurd (Storage.firstUnfit?_eq_none_iff.1 hFirst) h
  | some z =>
      refine ⟨z, List.mem_of_find?_eq_some hFirst, ?_, rfl⟩
      have hUnfit := List.find?_some hFirst
      simpa using hUnfit

/- An array is given when its exact entries fit. -/
theorem givesWhen_requireStored
    {α : Type}
    (op : BinaryOp)
    (zs : List Int)
    {a b : α}
    (hResult :
      (∀ z ∈ zs, Storage.fits z = true) → a = b) :
    GivesWhen (∀ z ∈ zs, Storage.fits z = true)
      (do requireStored op zs; return a) b := by
  constructor
  · intro h
    rw [requireStored, Storage.firstUnfit?_eq_none_iff.2 h,
      ← hResult h]
    rfl
  · intro h
    rcases requireStored_eq_error h with ⟨z, -, -, hError⟩
    rw [hError]
    exact ⟨_, rfl⟩

/- The same where a number must fit besides. -/
theorem givesWhen_storedScalar
    {α : Type}
    (op : BinaryOp)
    (zs : List Int)
    (k : Int)
    {f : Int → α}
    {b : α}
    (hResult :
      (∀ z ∈ zs, Storage.fits z = true) →
        Storage.fits k = true → f k = b) :
    GivesWhen
      ((∀ z ∈ zs, Storage.fits z = true) ∧
        Storage.fits k = true)
      (do
        requireStored op zs
        let x ← storedScalar op k
        return f x)
      b := by
  by_cases hScalar : Storage.fits k = true
  · have hStored : storedScalar op k = .ok k := if_pos hScalar
    rw [hStored]
    exact (givesWhen_requireStored op zs
      fun h => hResult h hScalar).congr (by simp [hScalar])
        fun _ => rfl
  · have hBeyond :
        storedScalar op k =
          .error (arithmeticFault op .beyondRange) :=
      if_neg hScalar
    rw [hBeyond]
    constructor
    · intro h
      exact absurd h.2 hScalar
    · intro _
      cases requireStored op zs with
      | error f =>
          exact ⟨f, rfl⟩
      | ok _ =>
          exact ⟨_, rfl⟩

end StackCalc

------------------------------------------------------------
-- Arrays And Numbers
------------------------------------------------------------

namespace StackCalc

namespace Entries

variable {C : Type → Type} [Shaped C] [LawfulShaped C]

/-
  A scaled array is exact. The factor must fit even where
  there are no entries to scale.
-/
theorem scale_ints
    (c : C Int)
    (k : Int) :
    GivesWhen
      ((∀ z ∈ Shaped.toList (Shaped.map (· * k) c),
          Storage.fits z = true) ∧
        Storage.fits k = true)
      (scale (.ints c) (.integer k))
      (.ints (Shaped.map (· * k) c)) := by
  rw [LawfulShaped.toList_map]
  apply givesWhen_storedScalar
  intro hEntries _
  rw [← LawfulShaped.toList_map] at hEntries
  rw [map_toWords fun z _ => (Int64.ofInt_mul z k).symm,
    ofWords_toWords hEntries]

/-
  A divided array is exact, and there is no dividing by
  zero, not even of an array without entries.
-/
theorem divide_ints
    {c : C Int}
    (hStored : (Entries.ints c).Stored)
    (k : Int) :
    GivesWhen
      ((∀ z ∈ Shaped.toList (Shaped.map (Int.fdiv · k) c),
          Storage.fits z = true) ∧
        Storage.fits k = true ∧ k ≠ 0)
      (divide (.ints c) (.integer k))
      (.ints (Shaped.map (Int.fdiv · k) c)) := by
  rw [divide]
  by_cases hZero : k = 0
  · rw [if_pos hZero]
    constructor
    · rintro ⟨-, -, hk⟩
      exact absurd hZero hk
    · intro _
      exact ⟨_, rfl⟩
  · rw [if_neg hZero]
    rw [LawfulShaped.toList_map]
    refine (givesWhen_storedScalar _ _ k ?_).congr
      (by simp [hZero]) fun _ => rfl
    intro hEntries hk
    rw [← LawfulShaped.toList_map] at hEntries
    have hQuotient :
        ∀ z ∈ Shaped.toList c,
          floorQuotient (Int64.ofInt z) (Int64.ofInt k) =
            Int64.ofInt (Int.fdiv z k) := by
      intro z hz
      exact floorQuotient_ofInt (hStored z hz) hk
    rw [map_toWords hQuotient, ofWords_toWords hEntries]

end Entries

end StackCalc

------------------------------------------------------------
-- Vectors
------------------------------------------------------------

namespace StackCalc

namespace NumVector

theorem combine_ints
    {f : Int → Int → Int}
    {w : Int64 → Int64 → Int64}
    (hWords : ∀ x y,
      w (Int64.ofInt x) (Int64.ofInt y) = Int64.ofInt (f x y))
    (op : BinaryOp)
    (g : Float → Float → Float)
    {xs ys : List Int}
    (hLength : xs.length = ys.length) :
    GivesWhen
      (∀ z ∈ List.zipWith f xs ys, Storage.fits z = true)
      (combine op f w g (.ints xs) (.ints ys))
      (.ints (List.zipWith f xs ys)) := by
  rw [combine, if_neg fun h => h hLength]
  apply givesWhen_requireStored
  intro hEntries
  rw [zipWith_toWords hWords, ofWords_toWords hEntries]

theorem dot_ints
    {xs ys : List Int}
    (hLength : xs.length = ys.length) :
    GivesWhen
      (Storage.fits (StackCalc.dot xs ys) = true)
      (dot (.ints xs) (.ints ys))
      (.integer (StackCalc.dot xs ys)) := by
  rw [dot, if_neg fun h => h hLength]
  refine (givesWhen_requireStored _ _ ?_).congr
    (by simp) fun _ => rfl
  intro hEntries
  have hFits := hEntries _ (List.mem_singleton_self _)
  rw [dot_toWords, Storage.toInt_ofInt hFits]

theorem cross_ints
    {xs ys zs : List Int}
    (hCross : crossProduct xs ys = some zs) :
    GivesWhen
      (∀ z ∈ zs, Storage.fits z = true)
      (cross (.ints xs) (.ints ys))
      (.ints zs) := by
  rw [cross, hCross, crossProduct_toWords hCross]
  apply givesWhen_requireStored
  intro hEntries
  rw [ofWords_toWords hEntries]

end NumVector

end StackCalc

------------------------------------------------------------
-- Columns
------------------------------------------------------------

namespace StackCalc

variable {α : Type}

namespace Grid

/- One more row puts an entry on top of every column. -/
theorem columns_cons
    {row : List α}
    {n : Nat}
    (hRow : row.length = n)
    (rows : List (List α)) :
    columns ⟨n, row :: rows⟩ =
      List.zipWith (· :: ·) row (columns ⟨n, rows⟩) := by
  apply List.ext_getElem
  · simp [columns, hRow]
  · intro j hj _
    have hjRow : j < row.length := by
      simpa [columns, hRow] using hj
    simp [columns, column, hjRow]

end Grid

/- Rows of one length show the columns of their grid. -/
theorem sideBySide_cons
    {n : Nat}
    {row : List α}
    {rows : List (List α)}
    (h : Grid.WellFormed ⟨n, row :: rows⟩) :
    sideBySide (row :: rows) =
      Grid.columns ⟨n, row :: rows⟩ := by
  have hRow : row.length = n := h row (by simp)
  rw [Grid.columns_cons hRow]
  induction rows generalizing row with
  | nil =>
      subst hRow
      rw [sideBySide]
      apply List.ext_getElem
      · simp [Grid.columns]
      · simp [Grid.columns, Grid.column]
  | cons next rows ih =>
      have hRows : Grid.WellFormed ⟨n, next :: rows⟩ := by
        intro r hr
        exact h r (List.mem_cons_of_mem row hr)
      have hNext : next.length = n := hRows next (by simp)
      rw [sideBySide, ih hRows hNext,
        Grid.columns_cons hNext]
      simp

/- Rows of one entry show a single column. -/
theorem sideBySide_singletons
    (y : α)
    (ys : List α) :
    sideBySide ((y :: ys).map fun a => [a]) = [y :: ys] := by
  induction ys generalizing y with
  | nil =>
      rfl
  | cons y' ys ih =>
      have hRest := ih y'
      rw [List.map_cons] at hRest ⊢
      rw [List.map_cons, sideBySide, hRest]
      · rfl
      · simp

end StackCalc

------------------------------------------------------------
-- Matrices
------------------------------------------------------------

namespace StackCalc

namespace NumMatrix

/- Products of empty rows are zero, which fits. -/
theorem fits_dot_of_width_eq_zero
    {x : Grid Int}
    {row : List Int}
    (hx : x.WellFormed)
    (hWidth : x.width = 0)
    (hRow : row ∈ x.rows)
    (ys : List Int) :
    Storage.fits (StackCalc.dot row ys) = true := by
  have hNil : row = [] :=
    List.length_eq_zero_iff.1 ((hx row hRow).trans hWidth)
  rw [hNil]
  rfl

/- Without right rows there is nothing to check. -/
theorem flatten_rowProducts_nil
    (left : List (List Int)) :
    (rowProducts left []).flatten = [] := by
  rw [List.flatten_eq_nil_iff]
  intro entries hEntries
  rcases List.mem_map.1 hEntries with ⟨row, _, rfl⟩
  rfl

/-
  The entries that are checked of a product are all of
  them. Without inner rows none are, and all are zero.
-/
theorem forall_mem_rowProducts_iff
    {x y : Grid Int}
    (hx : x.WellFormed)
    (hy : y.WellFormed)
    (hInner : x.width = y.height) :
    (∀ z ∈ (rowProducts x.rows y.rows).flatten,
        Storage.fits z = true) ↔
      ∀ z ∈ Shaped.toList (x.product y),
        Storage.fits z = true := by
  rcases y with ⟨n, rows⟩
  cases rows with
  | nil =>
      constructor
      · intro _ z hz
        simp only [Shaped.toList, Grid.toList, Grid.product,
          List.mem_flatten, List.mem_map] at hz
        rcases hz with ⟨_, ⟨row, hRow, rfl⟩, hz⟩
        rcases List.mem_map.1 hz with ⟨column, _, rfl⟩
        exact fits_dot_of_width_eq_zero hx hInner hRow column
      · intro _ z hz
        rw [flatten_rowProducts_nil] at hz
        simp at hz
  | cons row rows =>
      have hRows :
          rowProducts x.rows (row :: rows) =
            (x.product ⟨n, row :: rows⟩).rows := by
        rw [rowProducts, sideBySide_cons hy]
        rfl
      rw [hRows]
      exact Iff.rfl

theorem forall_mem_rowProducts_singletons_iff
    {x : Grid Int}
    {ys : List Int}
    (hx : x.WellFormed)
    (hInner : x.width = ys.length) :
    (∀ z ∈ (rowProducts x.rows
          (ys.map fun y => [y])).flatten,
        Storage.fits z = true) ↔
      ∀ z ∈ x.apply ys, Storage.fits z = true := by
  cases ys with
  | nil =>
      constructor
      · intro _ z hz
        rcases List.mem_map.1 hz with ⟨row, hRow, rfl⟩
        exact fits_dot_of_width_eq_zero hx hInner hRow []
      · intro _ z hz
        rw [List.map_nil, flatten_rowProducts_nil] at hz
        simp at hz
  | cons y ys =>
      have hEntries :
          (rowProducts x.rows
            ((y :: ys).map fun y => [y])).flatten =
            x.apply (y :: ys) := by
        rw [rowProducts, sideBySide_singletons, Grid.apply]
        induction x.rows with
        | nil =>
            rfl
        | cons row rows ih =>
            simpa using ih
      rw [hEntries]

theorem combine_ints
    {f : Int → Int → Int}
    {w : Int64 → Int64 → Int64}
    (hWords : ∀ x y,
      w (Int64.ofInt x) (Int64.ofInt y) = Int64.ofInt (f x y))
    (op : BinaryOp)
    (g : Float → Float → Float)
    {x y : Grid Int}
    (hShape : shape (.ints x) = shape (.ints y)) :
    GivesWhen
      (∀ z ∈ Shaped.toList (Grid.zipWith f x y),
        Storage.fits z = true)
      (combine op f w g (.ints x) (.ints y))
      (.ints (Grid.zipWith f x y)) := by
  rw [combine, if_neg fun h => h hShape]
  apply givesWhen_requireStored
  intro hEntries
  rw [Grid.zipWith_toWords hWords, ofWords_toWords hEntries]

theorem product_ints
    {x y : Grid Int}
    (hx : x.WellFormed)
    (hy : y.WellFormed)
    (hInner : x.width = y.height) :
    GivesWhen
      (∀ z ∈ Shaped.toList (x.product y),
        Storage.fits z = true)
      (product (.ints x) (.ints y))
      (.ints (x.product y)) := by
  have hChecked := forall_mem_rowProducts_iff hx hy hInner
  rw [product, if_neg fun h => h hInner]
  refine (givesWhen_requireStored _ _ ?_).congr hChecked
    fun _ => rfl
  intro hEntries
  rw [Grid.product_toWords,
    ofWords_toWords (hChecked.1 hEntries)]

theorem apply_ints
    {x : Grid Int}
    {ys : List Int}
    (hx : x.WellFormed)
    (hInner : x.width = ys.length) :
    GivesWhen
      (∀ z ∈ x.apply ys, Storage.fits z = true)
      (apply (.ints x) (.ints ys))
      (.ints (x.apply ys)) := by
  have hChecked :=
    forall_mem_rowProducts_singletons_iff hx hInner
  rw [apply, if_neg fun h => h hInner]
  refine (givesWhen_requireStored _ _ ?_).congr hChecked
    fun _ => rfl
  intro hEntries
  rw [Grid.apply_toWords,
    ofWords_toWords (hChecked.1 hEntries)]

end NumMatrix

end StackCalc
