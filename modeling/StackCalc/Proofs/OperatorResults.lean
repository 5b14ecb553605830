import StackCalc.Arithmetic.Binary
import StackCalc.Proofs.ArrayShapes
import StackCalc.Proofs.Words

/-
  What binary operators can give.

  A binary operator gives a number, a truth value, a text
  that is joined or repeated from its operands, or an array
  whose integers can be stored, since they are read back
  from words. The rows of a matrix that it gives have one
  length if those of its operands have.

  Main declarations:
    * `GivesOnly`
    * `Entries.Mapped`
    * `NumMatrix.IsSound`
    * `Binary.Gives`
    * `Binary.gives_of_apply`
-/

------------------------------------------------------------
-- Results With A Property
------------------------------------------------------------

namespace StackCalc

section GivesOnly

variable {α β : Type}

/- Whatever a computation gives has a property. -/
def GivesOnly
    (Q : α → Prop)
    (r : Except Fault α) : Prop :=
  ∀ a, r = .ok a → Q a

@[simp] theorem givesOnly_ok_iff
    {Q : α → Prop}
    {a : α} :
    GivesOnly Q (.ok a) ↔ Q a := by
  simp [GivesOnly]

@[simp] theorem givesOnly_error
    (Q : α → Prop)
    (f : Fault) :
    GivesOnly Q (.error f) := by
  simp [GivesOnly]

/- What comes first only decides whether there is more. -/
theorem givesOnly_bind
    {Q : β → Prop}
    (r : Except Fault α)
    {g : α → Except Fault β}
    (h : ∀ a, GivesOnly Q (g a)) :
    GivesOnly Q (r >>= g) := by
  cases r with
  | ok a =>
      exact h a
  | error f =>
      exact givesOnly_error Q f

theorem GivesOnly.map
    {Q : α → Prop}
    {R : β → Prop}
    {r : Except Fault α}
    {f : α → β}
    (h : GivesOnly Q r)
    (hMap : ∀ a, Q a → R (f a)) :
    GivesOnly R (r.map f) := by
  cases r with
  | ok a =>
      exact givesOnly_ok_iff.2 (hMap a (h a rfl))
  | error e =>
      exact givesOnly_error R e

end GivesOnly

end StackCalc

------------------------------------------------------------
-- Arrays And Numbers
------------------------------------------------------------

namespace StackCalc

/- Every word stands for an integer that fits. -/
theorem Storage.fits_toInt
    (w : Int64) :
    fits w.toInt = true := by
  have hLeast := w.le_toInt
  have hGreatest := w.toInt_lt
  rw [fits_iff]
  unfold least greatest
  omega

namespace Entries

variable {C : Type → Type} [Shaped C]

/-
  An array made from another one by changing its words, or
  its entries as doubles, one by one.
-/
inductive Mapped (a : Entries C) : Entries C → Prop
  | words
      {c : C Int}
      (f : Int64 → Int64)
      (h : a = .ints c) :
      Mapped a (.ints (ofWords (Shaped.map f (toWords c))))
  | doubles
      (f : Float → Float) :
      Mapped a (.floats (Shaped.map f a.toFloats))

theorem mapped_scale
    (a : Entries C)
    (k : Number) :
    GivesOnly a.Mapped (a.scale k) := by
  unfold scale
  split
  · apply givesOnly_bind
    intro _
    apply givesOnly_bind
    intro _
    exact givesOnly_ok_iff.2 (.words _ rfl)
  · apply givesOnly_bind
    intro _
    exact givesOnly_ok_iff.2 (.doubles (a := floats _) _)
  · exact givesOnly_ok_iff.2 (.doubles _)

theorem mapped_divide
    (a : Entries C)
    (k : Number) :
    GivesOnly a.Mapped (a.divide k) := by
  unfold divide
  split
  · split
    · exact givesOnly_error _ _
    · apply givesOnly_bind
      intro _
      apply givesOnly_bind
      intro _
      exact givesOnly_ok_iff.2 (.words _ rfl)
  · apply givesOnly_bind
    intro _
    exact givesOnly_ok_iff.2 (.doubles (a := floats _) _)
  · exact givesOnly_ok_iff.2 (.doubles _)

variable [LawfulShaped C]

/- What is read back from words can be stored. -/
theorem stored_ofWords
    (c : C Int64) :
    (Entries.ints (ofWords c)).Stored := by
  intro z hz
  rw [ofWords, LawfulShaped.toList_map] at hz
  rcases List.mem_map.1 hz with ⟨w, -, rfl⟩
  exact Storage.fits_toInt w

theorem Mapped.stored
    {a b : Entries C}
    (h : a.Mapped b) :
    b.Stored := by
  cases h with
  | words f _ =>
      exact stored_ofWords _
  | doubles f =>
      trivial

end Entries

end StackCalc

------------------------------------------------------------
-- Vectors
------------------------------------------------------------

namespace StackCalc

namespace NumVector

theorem stored_combine
    (op : BinaryOp)
    (f : Int → Int → Int)
    (w : Int64 → Int64 → Int64)
    (g : Float → Float → Float)
    (a b : NumVector) :
    GivesOnly Entries.Stored (a.combine op f w g b) := by
  unfold combine
  split
  · exact givesOnly_error _ _
  · split
    · apply givesOnly_bind
      intro _
      exact givesOnly_ok_iff.2 (Entries.stored_ofWords _)
    · exact givesOnly_ok_iff.2 trivial

theorem stored_cross
    (a b : NumVector) :
    GivesOnly Entries.Stored (a.cross b) := by
  unfold cross
  simp only
  split
  · split
    · apply givesOnly_bind
      intro _
      exact givesOnly_ok_iff.2 (Entries.stored_ofWords _)
    · exact givesOnly_error _ _
  · split
    · exact givesOnly_ok_iff.2 trivial
    · exact givesOnly_error _ _

end NumVector

end StackCalc

------------------------------------------------------------
-- Matrices
------------------------------------------------------------

namespace StackCalc

namespace NumMatrix

/-
  The integers of a matrix can be stored, and its rows have
  one length.
-/
structure IsSound (m : NumMatrix) : Prop where
  stored : m.Stored
  wellFormed : m.WellFormed

theorem isSound_ofWords
    {g : Grid Int64}
    (h : g.WellFormed) :
    IsSound (.ints (ofWords g)) :=
  ⟨Entries.stored_ofWords g, Grid.wellFormed_map h⟩

theorem isSound_floats
    {g : Grid Float}
    (h : g.WellFormed) :
    IsSound (.floats g) :=
  ⟨trivial, h⟩

theorem wellFormed_toFloats
    {m : NumMatrix}
    (h : m.WellFormed) :
    m.toFloats.WellFormed := by
  cases m with
  | ints g =>
      exact Grid.wellFormed_map h
  | floats g =>
      exact h

theorem height_toFloats
    (m : NumMatrix) :
    m.toFloats.height = m.height := by
  cases m with
  | ints g =>
      exact List.length_map _
  | floats g =>
      rfl

theorem width_toFloats
    (m : NumMatrix) :
    m.toFloats.width = m.width := by
  cases m with
  | _ =>
      rfl

/- Columns hold what the rows hold. -/
theorem IsSound.transpose
    {m : NumMatrix}
    (h : m.IsSound) :
    m.transpose.IsSound := by
  rcases h with ⟨hStored, hShape⟩
  cases m with
  | ints g =>
      refine ⟨?_, Grid.wellFormed_transpose hShape⟩
      intro z hz
      exact hStored z (Grid.mem_of_mem_transpose hz)
  | floats g =>
      exact isSound_floats (Grid.wellFormed_transpose hShape)

theorem isSound_of_mapped
    {a b : NumMatrix}
    (h : a.Mapped b)
    (ha : a.WellFormed) :
    b.IsSound := by
  refine ⟨h.stored, ?_⟩
  cases h with
  | words f hInts =>
      subst hInts
      exact Grid.wellFormed_map
        (Grid.wellFormed_map (Grid.wellFormed_map ha))
  | doubles f =>
      exact Grid.wellFormed_map (wellFormed_toFloats ha)

theorem isSound_combine
    (op : BinaryOp)
    (f : Int → Int → Int)
    (w : Int64 → Int64 → Int64)
    (g : Float → Float → Float)
    {a b : NumMatrix}
    (ha : a.WellFormed)
    (hb : b.WellFormed) :
    GivesOnly IsSound (a.combine op f w g b) := by
  unfold combine
  split
  · exact givesOnly_error _ _
  · rename_i hShape
    have hShape : a.shape = b.shape := not_not.1 hShape
    rw [shape, shape, Shape.mk.injEq] at hShape
    split
    · apply givesOnly_bind
      intro _
      refine givesOnly_ok_iff.2 (isSound_ofWords ?_)
      apply Grid.wellFormed_zipWith
      · exact Grid.wellFormed_map ha
      · exact Grid.wellFormed_map hb
      · simpa [toWords, Shaped.map, Grid.map, Grid.height,
          height] using hShape.1
      · exact hShape.2
    · refine givesOnly_ok_iff.2 (isSound_floats ?_)
      apply Grid.wellFormed_zipWith
      · exact wellFormed_toFloats ha
      · exact wellFormed_toFloats hb
      · rw [height_toFloats, height_toFloats]
        exact hShape.1
      · rw [width_toFloats, width_toFloats]
        exact hShape.2

theorem isSound_product
    (a b : NumMatrix) :
    GivesOnly IsSound (a.product b) := by
  unfold product
  split
  · exact givesOnly_error _ _
  · split
    · apply givesOnly_bind
      intro _
      exact givesOnly_ok_iff.2
        (isSound_ofWords (Grid.wellFormed_product _ _))
    · exact givesOnly_ok_iff.2
        (isSound_floats (Grid.wellFormed_product _ _))

theorem stored_apply
    (a : NumMatrix)
    (b : NumVector) :
    GivesOnly Entries.Stored (a.apply b) := by
  unfold apply
  split
  · exact givesOnly_error _ _
  · split
    · apply givesOnly_bind
      intro _
      exact givesOnly_ok_iff.2 (Entries.stored_ofWords _)
    · exact givesOnly_ok_iff.2 trivial

theorem isSound_power
    {a : NumMatrix}
    (ha : a.WellFormed)
    (n : ℤ) :
    GivesOnly IsSound (a.power n) := by
  unfold power
  split
  · exact givesOnly_error _ _
  · rename_i hSquare
    have hSquare : a.height = a.width := not_not.1 hSquare
    split
    · split
      · exact givesOnly_error _ _
      · rename_i g hInverse
        -- that the grid is square is needed here alone
        refine givesOnly_ok_iff.2 (isSound_floats ?_)
        apply wellFormed_gridPower
        apply Grid.wellFormed_inverse
          (wellFormed_toFloats ha) _ hInverse
        rw [height_toFloats, width_toFloats]
        exact hSquare
    · split
      · apply givesOnly_bind
        intro _
        refine givesOnly_ok_iff.2 (isSound_ofWords ?_)
        exact wellFormed_gridPower (Grid.wellFormed_map ha) _
      · refine givesOnly_ok_iff.2 (isSound_floats ?_)
        exact wellFormed_gridPower ha _

end NumMatrix

end StackCalc

------------------------------------------------------------
-- Operators
------------------------------------------------------------

namespace StackCalc

/- The rows of an operand have one length, if it has rows. -/
def Operand.HasShape : Operand → Prop
  | matrix m => m.WellFormed
  | _ => True

namespace Binary

/- What an operator can give on two operands. -/
inductive Gives (a b : Operand) : Value → Prop
  | number
      (n : Number) :
      Gives a b (.ofNumber n)
  | boolean
      (x : Bool) :
      Gives a b (.boolean x)
  | joined
      {s t : Text}
      (hs : a = .text s)
      (ht : b = .text t) :
      Gives a b (.ofText (s ++ t))
  | repeated
      {t : Text}
      (n : ℕ)
      (ht : a = .text t) :
      Gives a b (.ofText (Text.repeated t n))
  | vector
      {v : NumVector}
      (hStored : v.Stored) :
      Gives a b (.vector v)
  | matrix
      {m : NumMatrix}
      (hSound : a.HasShape → b.HasShape → m.IsSound) :
      Gives a b (.matrix m)

/- Whatever an operator gives on two operands, if any. -/
def GivesIn
    (Q : Value → Prop)
    (r : Result) : Prop :=
  ∀ x, r = some x → GivesOnly Q x

@[simp] theorem givesIn_none
    (Q : Value → Prop) :
    GivesIn Q none := by
  simp [GivesIn]

@[simp] theorem givesIn_some_iff
    {Q : Value → Prop}
    {x : Except Fault Value} :
    GivesIn Q (some x) ↔ GivesOnly Q x := by
  simp [GivesIn]

@[simp] theorem givesIn_given_iff
    {Q : Value → Prop}
    {v : Value} :
    GivesIn Q (given v) ↔ Q v := by
  simp [given]

section Operands

variable {a b : Operand}

theorem gives_arithmetic
    (op : BinaryOp)
    (r : Except ArithmeticFault Number) :
    GivesIn (Gives a b) (arithmetic op r) := by
  cases r with
  | ok n =>
      simpa [arithmetic] using .number n
  | error cause =>
      simp [arithmetic]

theorem gives_compareNumbers
    (op : BinaryOp)
    (x y : Number) :
    GivesOnly (Gives a b) (compareNumbers op x y) := by
  unfold compareNumbers
  split
  · exact givesOnly_ok_iff.2 (.number (.integer _))
  · exact givesOnly_error _ _
  · exact givesOnly_ok_iff.2 (.boolean _)
  · exact givesOnly_ok_iff.2 (.boolean _)

theorem gives_compareTexts
    (op : BinaryOp)
    (s t : Text) :
    Gives a b (compareTexts op s t) := by
  unfold compareTexts
  split
  · exact .number (.integer _)
  · exact .boolean _

theorem gives_onIntegers
    (op : BinaryOp)
    (x y : ℤ) :
    GivesIn (Gives a b) (onIntegers op x y) := by
  unfold onIntegers
  split
  · exact givesIn_given_iff.2 (.number (.integer _))
  · exact givesIn_given_iff.2 (.number (.integer _))
  · exact givesIn_given_iff.2 (.number (.integer _))
  · exact gives_arithmetic _ _
  · exact gives_arithmetic _ _
  · exact givesIn_none _

theorem gives_onNumbers
    (op : BinaryOp)
    (x y : Number) :
    GivesIn (Gives a b) (onNumbers op x y) := by
  unfold onNumbers
  split
  case h_12 =>
    split
    · exact gives_onIntegers _ _ _
    · exact givesIn_none _
  all_goals
    first
      | exact gives_arithmetic _ _
      | exact givesIn_some_iff.2 (gives_compareNumbers _ _ _)

theorem gives_onBooleans
    (op : BinaryOp)
    (x y : Bool) :
    GivesIn (Gives a b) (onBooleans op x y) := by
  unfold onBooleans
  split
  · exact givesIn_given_iff.2 (.boolean _)
  · exact givesIn_given_iff.2 (.boolean _)
  · exact givesIn_given_iff.2 (.boolean _)
  · exact givesIn_none _

theorem gives_onTexts
    (op : BinaryOp)
    (s t : Text) :
    GivesIn (Gives (.text s) (.text t)) (onTexts op s t) := by
  unfold onTexts
  split
  case h_1 =>
    exact givesIn_given_iff.2 (.joined rfl rfl)
  case h_7 =>
    exact givesIn_none _
  all_goals
    exact givesIn_given_iff.2 (gives_compareTexts _ _ _)

theorem gives_repetition
    (t : Text)
    (n : ℤ) :
    GivesOnly (Gives (.text t) b) (repetition t n) := by
  unfold repetition
  split
  · split
    · exact givesOnly_error _ _
    · exact givesOnly_error _ _
  · split
    · exact givesOnly_error _ _
    · exact givesOnly_ok_iff.2 (.repeated _ rfl)

theorem gives_onVectors
    (op : BinaryOp)
    (x y : NumVector) :
    GivesIn (Gives a b) (onVectors op x y) := by
  unfold onVectors
  split
  · exact givesIn_some_iff.2
      ((NumVector.stored_combine _ _ _ _ x y).map
        fun _ h => .vector h)
  · exact givesIn_some_iff.2
      ((NumVector.stored_combine _ _ _ _ x y).map
        fun _ h => .vector h)
  · refine givesIn_some_iff.2 (GivesOnly.map
      (Q := fun _ => True) ?_ fun n _ => .number n)
    exact fun _ _ => trivial
  · exact givesIn_some_iff.2
      ((NumVector.stored_cross x y).map fun _ h => .vector h)
  · exact givesIn_none _

theorem gives_onVectorNumber
    (op : BinaryOp)
    (x : NumVector)
    (k : Number) :
    GivesIn (Gives a b) (onVectorNumber op x k) := by
  unfold onVectorNumber
  split
  · exact givesIn_some_iff.2
      ((Entries.mapped_scale x k).map
        fun _ h => .vector h.stored)
  · exact givesIn_some_iff.2
      ((Entries.mapped_divide x k).map
        fun _ h => .vector h.stored)
  · exact givesIn_none _

/- A matrix that is sound if the operands have shape. -/
theorem givesIn_matrix
    {p : Prop}
    {r : Except Fault NumMatrix}
    (hShape : a.HasShape → b.HasShape → p)
    (h : p → GivesOnly NumMatrix.IsSound r) :
    GivesIn (Gives a b) (some (r.map .matrix)) := by
  refine givesIn_some_iff.2 (GivesOnly.map
    (Q := fun m => a.HasShape → b.HasShape → m.IsSound) ?_
    fun _ hSound => .matrix hSound)
  intro m hm ha hb
  exact h (hShape ha hb) m hm

theorem gives_onMatrices
    (op : BinaryOp)
    (x y : NumMatrix) :
    GivesIn (Gives (.matrix x) (.matrix y))
      (onMatrices op x y) := by
  unfold onMatrices
  split
  · exact givesIn_matrix And.intro fun h =>
      NumMatrix.isSound_combine _ _ _ _ h.1 h.2
  · exact givesIn_matrix And.intro fun h =>
      NumMatrix.isSound_combine _ _ _ _ h.1 h.2
  · exact givesIn_matrix And.intro fun _ =>
      NumMatrix.isSound_product x y
  · exact givesIn_none _

theorem gives_onMatrixNumber
    (op : BinaryOp)
    {x : NumMatrix}
    (hShape : a.HasShape → b.HasShape → x.WellFormed)
    (k : Number) :
    GivesIn (Gives a b) (onMatrixNumber op x k) := by
  unfold onMatrixNumber
  split
  · refine givesIn_matrix hShape ?_
    intro hx m hm
    exact NumMatrix.isSound_of_mapped
      (Entries.mapped_scale x k m hm) hx
  · refine givesIn_matrix hShape ?_
    intro hx m hm
    exact NumMatrix.isSound_of_mapped
      (Entries.mapped_divide x k m hm) hx
  · exact givesIn_matrix hShape fun hx =>
      NumMatrix.isSound_power hx _
  · exact givesIn_none _

end Operands

theorem gives_operate
    (op : BinaryOp)
    (a b : Operand) :
    GivesIn (Gives a b) (operate op a b) := by
  unfold operate
  split
  · exact gives_onNumbers _ _ _
  · exact gives_onBooleans _ _ _
  · exact gives_onTexts _ _ _
  · split
    · exact givesIn_some_iff.2 (gives_repetition _ _)
    · exact givesIn_none _
  · exact gives_onVectors _ _ _
  · exact gives_onVectorNumber _ _ _
  · split
    · exact gives_onVectorNumber _ _ _
    · exact givesIn_none _
  · exact gives_onMatrices _ _ _
  · split
    · exact givesIn_some_iff.2
        ((NumMatrix.stored_apply _ _).map
          fun _ h => .vector h)
    · exact givesIn_none _
  · apply gives_onMatrixNumber
    intro hLeft _
    exact hLeft
  · split
    · apply gives_onMatrixNumber
      intro _ hRight
      exact hRight
    · exact givesIn_none _
  · exact givesIn_none _

/- Every value that an operator gives is one of these. -/
theorem gives_of_apply
    {op : BinaryOp}
    {l r v : Value}
    (h : apply op l r = .ok v) :
    Gives l.operand r.operand v := by
  have hCombine :
      GivesIn (Gives l.operand r.operand)
        (combine op l.operand r.operand) := by
    unfold combine
    split
    · exact givesIn_given_iff.2 (.boolean _)
    · exact givesIn_given_iff.2 (.boolean _)
    · exact gives_operate _ _ _
  unfold apply at h
  split at h
  · rename_i x hx
    exact hCombine x hx v h
  · simp at h

end Binary

end StackCalc
