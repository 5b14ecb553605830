import StackCalc.Arithmetic.Binary

/-
  Whatever goes wrong when a binary operator is applied,
  the fault names the operator. It is never about the
  stack, which has given its values by then.

  Main declarations:
    * `Binary.Names`
    * `Binary.NamesIn`
    * `Binary.namesIn_combine`
-/

------------------------------------------------------------
-- Checks
------------------------------------------------------------

namespace StackCalc

namespace Binary

variable {α β : Type}

/-
  Every fault of an outcome names an operator, and none is
  about the stack.
-/
def Names
    (op : BinaryOp)
    (r : Except Fault α) : Prop :=
  ∀ f, r = .error f →
    f.token = some op.name ∧ f.kind ≠ .corruption

@[simp] theorem names_ok
    (op : BinaryOp)
    (a : α) :
    Names op (.ok a : Except Fault α) := by
  intro f h
  simp at h

@[simp] theorem names_error_iff
    {op : BinaryOp}
    {f : Fault} :
    Names op (.error f : Except Fault α) ↔
      f.token = some op.name ∧ f.kind ≠ .corruption := by
  constructor
  · intro h
    exact h f rfl
  · intro h f' hError
    rw [← Except.error.inj hError]
    exact h

theorem Names.bind
    {op : BinaryOp}
    {r : Except Fault α}
    {g : α → Except Fault β}
    (hFirst : Names op r)
    (hNext : ∀ a, Names op (g a)) :
    Names op (r >>= g) := by
  cases r with
  | ok a =>
      exact hNext a
  | error f =>
      exact names_error_iff.2 (hFirst f rfl)

@[simp] theorem names_map_iff
    {op : BinaryOp}
    {r : Except Fault α}
    {g : α → β} :
    Names op (r.map g) ↔ Names op r := by
  cases r with
  | ok a =>
      simp [Except.map]
  | error f =>
      simp [Except.map]

theorem names_requireStored
    (op : BinaryOp)
    (zs : List Int) :
    Names op (requireStored op zs) := by
  unfold requireStored overflowFault
  split
  · split
    · exact names_error_iff.2 ⟨rfl, nofun⟩
    · exact names_error_iff.2 ⟨rfl, nofun⟩
  · exact names_ok op ()

theorem names_storedScalar
    (op : BinaryOp)
    (z : Int) :
    Names op (storedScalar op z) := by
  unfold storedScalar
  split
  · exact names_ok op z
  · exact names_error_iff.2 ⟨rfl, nofun⟩

/- A result whose entries are checked to fit. -/
theorem names_stored
    (op : BinaryOp)
    (zs : List Int)
    (a : α) :
    Names op (do requireStored op zs; return a) :=
  (names_requireStored op zs).bind fun _ => names_ok op a

end Binary

end StackCalc

------------------------------------------------------------
-- Arrays
------------------------------------------------------------

namespace StackCalc

namespace Binary

variable {C : Type → Type} [Shaped C]

@[simp] theorem names_scale
    (v : Entries C)
    (k : Number) :
    Names .multiply (v.scale k) := by
  unfold Entries.scale
  split
  · exact (names_requireStored _ _).bind fun _ =>
      (names_storedScalar _ _).bind fun _ => names_ok _ _
  · exact (names_storedScalar _ _).bind fun _ => names_ok _ _
  · exact names_ok _ _

@[simp] theorem names_divide
    (v : Entries C)
    (k : Number) :
    Names .divide (v.divide k) := by
  unfold Entries.divide
  split
  · split
    · exact names_error_iff.2 ⟨rfl, nofun⟩
    · exact (names_requireStored _ _).bind fun _ =>
        (names_storedScalar _ _).bind fun _ => names_ok _ _
  · exact (names_storedScalar _ _).bind fun _ => names_ok _ _
  · exact names_ok _ _

@[simp] theorem names_combine_vectors
    (op : BinaryOp)
    (f : Int → Int → Int)
    (w : Int64 → Int64 → Int64)
    (g : Float → Float → Float)
    (a b : NumVector) :
    Names op (a.combine op f w g b) := by
  unfold NumVector.combine
  split
  · exact names_error_iff.2 ⟨rfl, nofun⟩
  · split
    · exact names_stored _ _ _
    · exact names_ok _ _

@[simp] theorem names_dot
    (a b : NumVector) :
    Names .multiply (a.dot b) := by
  unfold NumVector.dot
  split
  · exact names_error_iff.2 ⟨rfl, nofun⟩
  · split
    · exact names_stored _ _ _
    · exact names_ok _ _

@[simp] theorem names_cross
    (a b : NumVector) :
    Names .cross (a.cross b) := by
  unfold NumVector.cross
  simp only
  split
  · split
    · exact names_stored _ _ _
    · exact names_error_iff.2 ⟨rfl, nofun⟩
  · split
    · exact names_ok _ _
    · exact names_error_iff.2 ⟨rfl, nofun⟩

@[simp] theorem names_combine_matrices
    (op : BinaryOp)
    (f : Int → Int → Int)
    (w : Int64 → Int64 → Int64)
    (g : Float → Float → Float)
    (a b : NumMatrix) :
    Names op (a.combine op f w g b) := by
  unfold NumMatrix.combine
  split
  · exact names_error_iff.2 ⟨rfl, nofun⟩
  · split
    · exact names_stored _ _ _
    · exact names_ok _ _

@[simp] theorem names_product
    (a b : NumMatrix) :
    Names .multiply (a.product b) := by
  unfold NumMatrix.product
  split
  · exact names_error_iff.2 ⟨rfl, nofun⟩
  · split
    · exact names_stored _ _ _
    · exact names_ok _ _

@[simp] theorem names_apply
    (a : NumMatrix)
    (b : NumVector) :
    Names .multiply (a.apply b) := by
  unfold NumMatrix.apply
  split
  · exact names_error_iff.2 ⟨rfl, nofun⟩
  · split
    · exact names_stored _ _ _
    · exact names_ok _ _

/- Every product on the way to a power is checked. -/
theorem names_exactPowerFrom
    (result base : List (List Int))
    (n : Nat) :
    Names .power
      (NumMatrix.exactPowerFrom result base n) := by
  induction n using Nat.strongRecOn generalizing result base
  rename_i n ih
  rw [NumMatrix.exactPowerFrom]
  split
  · exact names_ok _ _
  · have hRest :
        ∀ next : List (List Int),
          Names .power
            (if n / 2 = 0 then
              (pure next : Except Fault (List (List Int)))
            else do
              requireStored .power
                (rowProducts base base).flatten
              NumMatrix.exactPowerFrom next
                (rowProducts base base) (n / 2)) := by
      intro next
      split
      · exact names_ok _ _
      · exact (names_requireStored _ _).bind fun _ =>
          ih (n / 2) (by omega) _ _
    simp only
    split
    · exact (names_requireStored _ _).bind fun _ => hRest _
    · exact hRest _

@[simp] theorem names_power
    (a : NumMatrix)
    (n : Int) :
    Names .power (a.power n) := by
  unfold NumMatrix.power
  split
  · exact names_error_iff.2 ⟨rfl, nofun⟩
  · split
    · split
      · exact names_error_iff.2 ⟨rfl, nofun⟩
      · exact names_ok _ _
    · split
      · exact (names_exactPowerFrom _ _ _).bind fun _ =>
          names_ok _ _
      · exact names_ok _ _

end Binary

end StackCalc

------------------------------------------------------------
-- Operators
------------------------------------------------------------

namespace StackCalc

namespace Binary

/- Every fault of a result, if there is one, names `op`. -/
def NamesIn
    (op : BinaryOp)
    (result : Result) : Prop :=
  ∀ r, result = some r → Names op r

@[simp] theorem namesIn_none
    (op : BinaryOp) :
    NamesIn op none := by
  intro r h
  simp at h

@[simp] theorem namesIn_some_iff
    {op : BinaryOp}
    {r : Except Fault Value} :
    NamesIn op (some r) ↔ Names op r := by
  simp [NamesIn]

@[simp] theorem namesIn_given
    (op : BinaryOp)
    (v : Value) :
    NamesIn op (given v) :=
  namesIn_some_iff.2 (names_ok op v)

@[simp] theorem namesIn_arithmetic
    (op : BinaryOp)
    (r : Except ArithmeticFault Number) :
    NamesIn op (arithmetic op r) := by
  apply namesIn_some_iff.2
  split
  · exact names_ok _ _
  · exact names_error_iff.2 ⟨rfl, nofun⟩

@[simp] theorem namesIn_integral
    (op : BinaryOp)
    (r : Except ArithmeticFault Int) :
    NamesIn op (integral op r) :=
  namesIn_arithmetic op _

@[simp] theorem names_compareNumbers
    (op : BinaryOp)
    (a b : Number) :
    Names op (compareNumbers op a b) := by
  unfold compareNumbers incomparable
  split
  · exact names_ok _ _
  · split
    · exact names_error_iff.2 ⟨rfl, nofun⟩
    · exact names_error_iff.2 ⟨rfl, nofun⟩
  · exact names_ok _ _
  · exact names_ok _ _

@[simp] theorem names_repetition
    (t : Text)
    (count : Int) :
    Names .multiply (repetition t count) := by
  unfold repetition
  split
  · split
    · exact names_error_iff.2 ⟨rfl, nofun⟩
    · exact names_error_iff.2 ⟨rfl, nofun⟩
  · split
    · exact names_error_iff.2 ⟨rfl, nofun⟩
    · exact names_ok _ _

@[simp] theorem namesIn_onNumbers
    (op : BinaryOp)
    (a b : Number) :
    NamesIn op (onNumbers op a b) := by
  have hIntegers :
      ∀ x y, NamesIn op (onIntegers op x y) := by
    intro x y
    unfold onIntegers
    split <;> simp
  unfold onNumbers
  split
  case h_12 =>
    split
    · exact hIntegers _ _
    · exact namesIn_none op
  all_goals simp

@[simp] theorem namesIn_onBooleans
    (op : BinaryOp)
    (a b : Bool) :
    NamesIn op (onBooleans op a b) := by
  unfold onBooleans
  split <;> simp

@[simp] theorem namesIn_onTexts
    (op : BinaryOp)
    (s t : Text) :
    NamesIn op (onTexts op s t) := by
  unfold onTexts
  split <;> simp

@[simp] theorem namesIn_onVectors
    (op : BinaryOp)
    (a b : NumVector) :
    NamesIn op (onVectors op a b) := by
  unfold onVectors
  split <;> simp

@[simp] theorem namesIn_onMatrices
    (op : BinaryOp)
    (a b : NumMatrix) :
    NamesIn op (onMatrices op a b) := by
  unfold onMatrices
  split <;> simp

@[simp] theorem namesIn_onVectorNumber
    (op : BinaryOp)
    (v : NumVector)
    (k : Number) :
    NamesIn op (onVectorNumber op v k) := by
  unfold onVectorNumber
  split <;> simp

@[simp] theorem namesIn_onMatrixNumber
    (op : BinaryOp)
    (m : NumMatrix)
    (k : Number) :
    NamesIn op (onMatrixNumber op m k) := by
  unfold onMatrixNumber
  split <;> simp

theorem namesIn_operate
    (op : BinaryOp)
    (a b : Operand) :
    NamesIn op (operate op a b) := by
  -- Where only products are defined, `op` is that operator.
  have hProduct :
      ∀ {result}, (op = .multiply → NamesIn op result) →
        NamesIn op
          (if op = .multiply then result else none) := by
    intro result h
    split
    · exact h ‹_›
    · exact namesIn_none op
  unfold operate
  split
  case h_4 =>
    apply hProduct
    rintro rfl
    simp
  case h_7 =>
    exact hProduct fun _ => namesIn_onVectorNumber _ _ _
  case h_9 =>
    apply hProduct
    rintro rfl
    simp
  case h_11 =>
    exact hProduct fun _ => namesIn_onMatrixNumber _ _ _
  all_goals simp

/- The faults of an operator on operands name it. -/
theorem namesIn_combine
    (op : BinaryOp)
    (a b : Operand) :
    NamesIn op (combine op a b) := by
  unfold combine
  split
  · exact namesIn_given _ _
  · exact namesIn_given _ _
  · exact namesIn_operate _ a b

end Binary

end StackCalc
