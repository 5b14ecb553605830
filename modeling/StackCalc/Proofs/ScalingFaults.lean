import StackCalc.Proofs.ExactResults
import StackCalc.Proofs.WrittenInteger

/-
  Faults of scaled integer arrays.

  A product that does not fit into storage is a fault, and
  the first such product, row after row, decides which. It
  stands in the message of an arithmetic fault. A product
  with too many digits cannot be written there, and then it
  is a fault of typing, as if the operands did not suit the
  operator.

  Main declarations:
    * `Value.IsIntegerArray`
    * `Storage.exists_first_unfit`
    * `Entries.scale_of_unfit`
    * `Binary.apply_scaled_overflow`
-/

------------------------------------------------------------
-- The First Product That Does Not Fit
------------------------------------------------------------

namespace StackCalc

/- Of integers that do not all fit one is the first. -/
theorem Storage.exists_first_unfit
    {zs : List ℤ}
    (h : ∃ z ∈ zs, fits z = false) :
    ∃ before p after,
      zs = before ++ p :: after ∧
      (∀ z ∈ before, fits z = true) ∧
      fits p = false ∧
      firstUnfit? zs = some p := by
  have hSome : (firstUnfit? zs).isSome = true := by
    simpa [firstUnfit?] using h
  rcases Option.isSome_iff_exists.1 hSome with ⟨p, hFirst⟩
  rcases List.find?_eq_some_iff_append.1 hFirst with
    ⟨hUnfit, before, after, hSplit, hBefore⟩
  refine ⟨before, p, after, hSplit, ?_, ?_, hFirst⟩
  · intro z hz
    simpa using hBefore z hz
  · simpa using hUnfit

/- The fault of scaling is that of the first such product. -/
theorem Entries.scale_of_unfit
    {C : Type → Type}
    [Shaped C]
    {c : C ℤ}
    {k p : ℤ}
    (h : Storage.firstUnfit?
      ((Shaped.toList c).map (· * k)) = some p) :
    scale (.ints c) (.integer k) =
      .error (overflowFault .multiply p) := by
  simp only [scale, requireStored, h]
  rfl

theorem token_overflowFault
    (op : BinaryOp)
    (z : ℤ) :
    (overflowFault op z).token = some op.name := by
  unfold overflowFault
  split
  · rfl
  · rfl

/- Only what can be written is an arithmetic fault. -/
theorem kind_overflowFault
    (op : BinaryOp)
    (z : ℤ) :
    (overflowFault op z).kind =
      if (Decimal.natText z.natAbs).length ≤
          Decimal.maxDigits then .arithmetic
      else .typing := by
  simp only [overflowFault, Decimal.length_natText_le_iff,
    Decimal.isShort_natAbs]
  split
  · rfl
  · rfl

end StackCalc

------------------------------------------------------------
-- Scaled Arrays
------------------------------------------------------------

namespace StackCalc

/- Vectors and matrices of integers. -/
inductive Value.IsIntegerArray : Value → Prop
  | vector
      (zs : List ℤ) :
      IsIntegerArray (.vector (.ints zs))
  | matrix
      (g : Grid ℤ) :
      IsIntegerArray (.matrix (.ints g))

namespace Binary

/- From either side a factor scales in the same way. -/
theorem apply_scaled_of_unfit
    {a : Value}
    {k p : ℤ}
    (hArray : a.IsIntegerArray)
    (h : Storage.firstUnfit? (a.integers.map (· * k)) =
      some p) :
    apply .multiply a (.integer k) =
        .error (overflowFault .multiply p) ∧
      apply .multiply (.integer k) a =
        .error (overflowFault .multiply p) := by
  cases hArray with
  | vector zs =>
      have hScale :
          Entries.scale (.ints zs) (.integer k) =
            .error (overflowFault .multiply p) :=
        Entries.scale_of_unfit h
      have hApply :
          (Entries.scale (.ints zs) (.integer k)).map
              Value.vector =
            .error (overflowFault .multiply p) := by
        rw [hScale]
        rfl
      exact ⟨hApply, hApply⟩
  | matrix g =>
      have hScale :
          Entries.scale (.ints g) (.integer k) =
            .error (overflowFault .multiply p) :=
        Entries.scale_of_unfit h
      have hApply :
          (Entries.scale (.ints g) (.integer k)).map
              Value.matrix =
            .error (overflowFault .multiply p) := by
        rw [hScale]
        rfl
      exact ⟨hApply, hApply⟩

/-
  If a product does not fit into storage, scaling from
  either side is a fault of the operator. It is arithmetic
  just when the first product that does not fit has no more
  digits than can be written, and of typing otherwise.
-/
theorem apply_scaled_overflow
    {a : Value}
    {k : ℤ}
    (hArray : a.IsIntegerArray)
    (hOver :
      ∃ z ∈ a.integers, Storage.fits (z * k) = false) :
    ∃ before p after f,
      a.integers.map (· * k) = before ++ p :: after ∧
      (∀ z ∈ before, Storage.fits z = true) ∧
      Storage.fits p = false ∧
      apply .multiply a (.integer k) = .error f ∧
      apply .multiply (.integer k) a = .error f ∧
      f.token = some BinaryOp.multiply.name ∧
      f.kind =
        if (Decimal.natText p.natAbs).length ≤
            Decimal.maxDigits then .arithmetic
        else .typing := by
  have hProducts :
      ∃ z ∈ a.integers.map (· * k),
        Storage.fits z = false := by
    rcases hOver with ⟨z, hz, hUnfit⟩
    exact ⟨z * k, List.mem_map_of_mem hz, hUnfit⟩
  rcases Storage.exists_first_unfit hProducts with
    ⟨before, p, after, hSplit, hBefore, hUnfit, hFirst⟩
  rcases apply_scaled_of_unfit hArray hFirst with
    ⟨hRight, hLeft⟩
  exact ⟨before, p, after, _, hSplit, hBefore, hUnfit,
    hRight, hLeft, token_overflowFault _ p,
    kind_overflowFault _ p⟩

/-
  The greatest product that can be written, after one that
  fits, is an arithmetic fault.
-/
theorem apply_scaled_overflow_greatest :
    Value.IsIntegerArray (.vector (.ints [0, -1])) ∧
      (∃ z ∈ Value.integers (.vector (.ints [0, -1])),
        Storage.fits (z * (1 - 10 ^ 4300)) = false) ∧
      ∃ f,
        apply .multiply (.vector (.ints [0, -1]))
            (.integer (1 - 10 ^ 4300)) = .error f ∧
          f.kind = .arithmetic := by
  have hArray :
      Value.IsIntegerArray (.vector (.ints [0, -1])) :=
    .vector _
  have hUnfit :
      Storage.fits (-1 * (1 - 10 ^ 4300)) = false := by
    decide +kernel
  have hOver :
      ∃ z ∈ Value.integers (.vector (.ints [0, -1])),
        Storage.fits (z * (1 - 10 ^ 4300)) = false :=
    ⟨-1, by decide, hUnfit⟩
  refine ⟨hArray, hOver, ?_⟩
  rcases apply_scaled_overflow hArray hOver with
    ⟨before, p, after, f, hSplit, -, hFirst, hApply, -, -,
      hKind⟩
  have hMem :
      p ∈ [0 * (1 - 10 ^ 4300), -1 * (1 - 10 ^ 4300)] := by
    have hList :
        [0 * (1 - 10 ^ 4300), -1 * (1 - 10 ^ 4300)] =
          before ++ p :: after :=
      hSplit
    rw [hList]
    exact List.mem_append_right before List.mem_cons_self
  have hProduct : p = -1 * (1 - 10 ^ 4300) := by
    rcases List.mem_pair.1 hMem with hZero | hProduct
    · rw [hZero, zero_mul] at hFirst
      exact absurd hFirst (by decide)
    · exact hProduct
  have hShort :
      Decimal.isShort (-1 * (1 - 10 ^ 4300)) = true := by
    decide +kernel
  have hWritten :
      (Decimal.natText p.natAbs).length ≤
        Decimal.maxDigits := by
    rw [Decimal.length_natText_le_iff, Decimal.isShort_natAbs,
      hProduct]
    exact hShort
  rw [if_pos hWritten] at hKind
  exact ⟨f, hApply, hKind⟩

/-
  A product with one digit more does not fit either, but
  the fault is one of typing.
-/
theorem apply_scaled_unspeakable :
    Storage.fits (10 * 10 ^ 4299) = false ∧
      apply .multiply (.vector (.ints [10]))
          (.integer (10 ^ 4299)) =
        .error (.typing (.unspeakable "*".toList)) := by
  have hUnfit : Storage.fits (10 * 10 ^ 4299) = false := by
    decide +kernel
  have hLong : Decimal.isShort (10 * 10 ^ 4299) = false := by
    decide +kernel
  have hFirst :
      Storage.firstUnfit?
          ((Value.integers (.vector (.ints [10]))).map
            (· * 10 ^ 4299)) =
        some (10 * 10 ^ 4299) := by
    simp only [Value.integers, List.map_cons, List.map_nil,
      Storage.firstUnfit?]
    rw [List.find?_cons_of_pos]
    rw [hUnfit]
    rfl
  refine ⟨hUnfit, ?_⟩
  rw [(apply_scaled_of_unfit (.vector [10]) hFirst).1,
    overflowFault, hLong]
  rfl

end Binary

end StackCalc
