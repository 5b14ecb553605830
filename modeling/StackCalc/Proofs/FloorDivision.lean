import StackCalc.Arithmetic.Binary
import Mathlib.Algebra.Order.Group.Unbundled.Int
import Mathlib.Tactic.Linarith

/-
  Quotients, remainders and shifts of integers.

  All of them round down, whatever the signs: a remainder
  has the sign of the divisor, and a shift down by some
  places is the quotient by that power of two. A shift up
  is a product, which a shift down undoes, and it is a
  fault only if the result has more words than an integer
  has room for.

  Main declarations:
    * `IsFloorDivision`
    * `Bits.shiftLeft_eq_shiftRight_neg`
    * `Binary.apply_shiftLeft_eq_ok_iff`
    * `Binary.apply_shiftLeft_of_nonneg_iff`
    * `Binary.apply_shiftRight_of_nonneg`
    * `Binary.apply_integers_consistent`
-/

------------------------------------------------------------
-- Quotients And Remainders
------------------------------------------------------------

namespace StackCalc

/-
  Quotient and remainder of a division that rounds down:
  the remainder is smaller than the divisor and on its side
  of zero.
-/
structure IsFloorDivision (a b q r : ℤ) : Prop where
  sum : a = b * q + r
  side : r = 0 ∨ r.sign = b.sign
  size : |r| < |b|

theorem isFloorDivision_of_pos
    {b : ℤ}
    (hb : 0 < b)
    (a : ℤ) :
    IsFloorDivision a b (a.fdiv b) (a.fmod b) := by
  have hNonneg := Int.fmod_nonneg_of_pos a hb
  have hLt := Int.fmod_lt_of_pos a hb
  refine ⟨(Int.mul_fdiv_add_fmod a b).symm, ?_, ?_⟩
  · rcases hNonneg.eq_or_lt with hZero | hPos
    · exact .inl hZero.symm
    · right
      rw [Int.sign_eq_one_of_pos hPos,
        Int.sign_eq_one_of_pos hb]
  · rwa [abs_of_nonneg hNonneg, abs_of_pos hb]

/- Changing both signs changes only that of the remainder. -/
theorem IsFloorDivision.neg
    {a b q r : ℤ}
    (h : IsFloorDivision (-a) (-b) q r) :
    IsFloorDivision a b q (-r) := by
  refine ⟨?_, ?_, ?_⟩
  · linarith [h.sum]
  · rcases h.side with hZero | hSign
    · left
      rw [hZero, neg_zero]
    · right
      rw [Int.sign_neg, hSign, Int.sign_neg, neg_neg]
  · simpa using h.size

/- Whatever the signs, division rounds down. -/
theorem isFloorDivision_fdiv
    {b : ℤ}
    (hb : b ≠ 0)
    (a : ℤ) :
    IsFloorDivision a b (a.fdiv b) (a.fmod b) := by
  rcases lt_or_gt_of_ne hb with hNeg | hPos
  · have hFlipped :=
      isFloorDivision_of_pos (Int.neg_pos_of_neg hNeg) (-a)
    rw [Int.neg_fdiv_neg, Int.neg_fmod_neg] at hFlipped
    simpa using hFlipped.neg
  · exact isFloorDivision_of_pos hPos a

end StackCalc

------------------------------------------------------------
-- Shifts
------------------------------------------------------------

namespace StackCalc

namespace Bits

/- An integer has room where it is. -/
theorem hasRoom_zero
    (z : ℤ) :
    hasRoom z 0 = true := by
  simp [hasRoom]

theorem shiftUp_zero
    (z : ℤ) :
    shiftUp z 0 = .ok z := by
  unfold shiftUp
  split
  case isTrue hZero =>
    rw [hZero]
  case isFalse =>
    rw [if_pos (hasRoom_zero z)]
    exact congrArg Except.ok (mul_one z)

/- Shifting up is shifting down by the opposite count. -/
theorem shiftLeft_eq_shiftRight_neg
    (z n : ℤ) :
    shiftLeft z n = shiftRight z (-n) := by
  unfold shiftLeft shiftRight
  rcases lt_trichotomy n 0 with hNeg | rfl | hPos
  · rw [if_neg (by omega), if_pos (by omega)]
  · rw [neg_zero, if_pos le_rfl, if_pos le_rfl]
    exact (shiftUp_zero z).trans
      (congrArg Except.ok (Int.shiftRight_zero z).symm)
  · rw [if_pos (by omega), if_neg (by omega), neg_neg]

/- What is shifted up is multiplied by a power of two. -/
theorem shiftUp_eq_ok_iff
    {z w : ℤ}
    {n : ℕ} :
    shiftUp z n = .ok w ↔
      hasRoom z n = true ∧ w = z * 2 ^ n := by
  unfold shiftUp
  split
  case isTrue hZero =>
    simp [hZero, hasRoom, eq_comm]
  case isFalse hNonzero =>
    split
    case isTrue hRoom =>
      simp [hRoom, eq_comm]
    case isFalse hFull =>
      simp [hFull]

/- What is shifted down is divided by a power of two. -/
theorem shiftDown_eq_fdiv
    (z : ℤ)
    (n : ℕ) :
    shiftDown z n = z.fdiv (2 ^ n) := by
  have hPos : (0 : ℤ) ≤ 2 ^ n := by
    positivity
  rw [shiftDown, Int.shiftRight_eq_div_pow,
    Int.fdiv_eq_ediv_of_nonneg z hPos, Nat.cast_pow]
  rfl

/- Shifting down undoes shifting up. -/
theorem shiftDown_mul_pow
    (z : ℤ)
    (n : ℕ) :
    shiftDown (z * 2 ^ n) n = z := by
  have hNe : (2 : ℤ) ^ n ≠ 0 := by
    positivity
  rw [shiftDown_eq_fdiv, mul_comm,
    Int.mul_fdiv_cancel_left z hNe]

theorem shiftDown_add
    (z : ℤ)
    (m n : ℕ) :
    shiftDown z (m + n) = shiftDown (shiftDown z m) n :=
  Int.shiftRight_add z m n

end Bits

end StackCalc

------------------------------------------------------------
-- Operators On Integers
------------------------------------------------------------

namespace StackCalc

namespace Binary

theorem apply_divide_integers
    {b : ℤ}
    (hb : b ≠ 0)
    (a : ℤ) :
    apply .divide (.integer a) (.integer b) =
      .ok (.integer (a.fdiv b)) := by
  simp [apply, combine, Value.operand, operate, onNumbers,
    arithmetic, Number.quotient, hb, Value.ofNumber]

theorem apply_remainder_integers
    {b : ℤ}
    (hb : b ≠ 0)
    (a : ℤ) :
    apply .remainder (.integer a) (.integer b) =
      .ok (.integer (a.fmod b)) := by
  simp [apply, combine, Value.operand, operate, onNumbers,
    arithmetic, Number.remainder, hb, Value.ofNumber]

theorem apply_power_integers
    {n : ℤ}
    (hn : 0 ≤ n)
    (a : ℤ) :
    apply .power (.integer a) (.integer n) =
      .ok (.integer (a ^ n.toNat)) := by
  simp [apply, combine, Value.operand, operate, onNumbers,
    arithmetic, Number.power, hn, intPower_eq_pow,
    Value.ofNumber]

/- An operation on integers gives an integer or a fault. -/
theorem integral_eq_ok_iff
    {op : BinaryOp}
    {r : Except ArithmeticFault ℤ}
    {v : Value} :
    integral op r = some (.ok v) ↔
      ∃ z, r = .ok z ∧ v = .integer z := by
  cases r with
  | ok z =>
      simp [integral, arithmetic, Except.map, Value.ofNumber,
        eq_comm]
  | error cause =>
      simp [integral, arithmetic, Except.map]

theorem apply_shiftLeft
    (a n : ℤ) :
    some (apply .shiftLeft (.integer a) (.integer n)) =
      integral .shiftLeft (Bits.shiftLeft a n) :=
  rfl

theorem apply_shiftRight
    (a n : ℤ) :
    some (apply .shiftRight (.integer a) (.integer n)) =
      integral .shiftRight (Bits.shiftRight a n) :=
  rfl

/- A shift one way is a shift by the opposite the other way. -/
theorem apply_shiftLeft_eq_ok_iff
    {a n : ℤ}
    {v : Value} :
    apply .shiftLeft (.integer a) (.integer n) = .ok v ↔
      apply .shiftRight (.integer a) (.integer (-n)) =
        .ok v := by
  rw [← Option.some_inj, apply_shiftLeft, integral_eq_ok_iff,
    ← Option.some_inj, apply_shiftRight, integral_eq_ok_iff,
    Bits.shiftLeft_eq_shiftRight_neg]

/- Shifts down have no fault. -/
theorem apply_shiftRight_of_nonneg
    {n : ℤ}
    (hn : 0 ≤ n)
    (a : ℤ) :
    apply .shiftRight (.integer a) (.integer n) =
      .ok (.integer (Bits.shiftDown a n.toNat)) := by
  rw [← Option.some_inj, apply_shiftRight,
    integral_eq_ok_iff]
  refine ⟨_, ?_, rfl⟩
  rw [Bits.shiftRight, if_pos hn]

/- Shifts up multiply, as long as there is room. -/
theorem apply_shiftLeft_of_nonneg_iff
    {a n : ℤ}
    {v : Value}
    (hn : 0 ≤ n) :
    apply .shiftLeft (.integer a) (.integer n) = .ok v ↔
      Bits.hasRoom a n.toNat = true ∧
        v = .integer (a * 2 ^ n.toNat) := by
  rw [← Option.some_inj, apply_shiftLeft, integral_eq_ok_iff,
    Bits.shiftLeft, if_pos hn]
  constructor
  · rintro ⟨z, hUp, rfl⟩
    rcases Bits.shiftUp_eq_ok_iff.1 hUp with ⟨hRoom, rfl⟩
    exact ⟨hRoom, rfl⟩
  · rintro ⟨hRoom, rfl⟩
    exact ⟨_, Bits.shiftUp_eq_ok_iff.2 ⟨hRoom, rfl⟩, rfl⟩

/- Without room a shift up is an arithmetic fault. -/
theorem exists_apply_shiftLeft_eq_error
    {a n : ℤ}
    (hFull : Bits.hasRoom a n.toNat = false) :
    ∃ f, apply .shiftLeft (.integer a) (.integer n) =
        .error f ∧ f.kind = .arithmetic := by
  have hNonzero : a ≠ 0 := by
    rintro rfl
    simp [Bits.hasRoom] at hFull
  have hUpward : 0 ≤ n := by
    by_contra hNeg
    rw [Int.toNat_of_nonpos (by omega),
      Bits.hasRoom_zero] at hFull
    simp at hFull
  have hUp :
      Bits.shiftLeft a n = .error .beyondRange := by
    simp [Bits.shiftLeft, Bits.shiftUp, hUpward, hNonzero,
      hFull]
  refine ⟨arithmeticFault .shiftLeft .beyondRange, ?_, rfl⟩
  rw [← Option.some_inj, apply_shiftLeft, hUp]
  rfl

/-
  Quotients and remainders of integers round down, and by
  zero there are none. Shifts are products and quotients by
  powers of two, rounded in the same way: a shift down
  undoes a shift up, and shifts down add up. A shift up has
  a result exactly if there is room for it.
-/
theorem apply_integers_consistent
    (a b m n : ℤ) :
    (b ≠ 0 → ∃ q r,
      apply .divide (.integer a) (.integer b) =
          .ok (.integer q) ∧
        apply .remainder (.integer a) (.integer b) =
          .ok (.integer r) ∧
        IsFloorDivision a b q r) ∧
    (∃ f g,
      apply .divide (.integer a) (.integer 0) = .error f ∧
        apply .remainder (.integer a) (.integer 0) =
          .error g ∧
        f.kind = .arithmetic ∧ g.kind = .arithmetic) ∧
    (∀ v,
      apply .shiftLeft (.integer a) (.integer n) = .ok v ↔
        apply .shiftRight (.integer a) (.integer (-n)) =
          .ok v) ∧
    (Bits.hasRoom a n.toNat = true → ∃ v,
      apply .shiftLeft (.integer a) (.integer n) = .ok v) ∧
    (Bits.hasRoom a n.toNat = false → ∃ f,
      apply .shiftLeft (.integer a) (.integer n) = .error f ∧
        f.kind = .arithmetic) ∧
    (0 ≤ n →
      (∀ v,
        apply .shiftLeft (.integer a) (.integer n) = .ok v →
          (do
            let p ← apply .power (.integer 2) (.integer n)
            apply .multiply (.integer a) p) = .ok v ∧
          apply .shiftRight v (.integer n) =
            .ok (.integer a)) ∧
      (∃ v,
        apply .shiftRight (.integer a) (.integer n) = .ok v ∧
          (do
            let p ← apply .power (.integer 2) (.integer n)
            apply .divide (.integer a) p) = .ok v) ∧
      (0 ≤ m → ∃ v,
        (do
          let w ← apply .shiftRight (.integer a) (.integer m)
          apply .shiftRight w (.integer n)) = .ok v ∧
        (do
          let s ← apply .add (.integer m) (.integer n)
          apply .shiftRight (.integer a) s) = .ok v)) := by
  refine ⟨?_, ?_, ?_, ?_, ?_, ?_⟩
  · intro hb
    exact ⟨_, _, apply_divide_integers hb a,
      apply_remainder_integers hb a,
      isFloorDivision_fdiv hb a⟩
  · exact ⟨_, _, rfl, rfl, rfl, rfl⟩
  · intro v
    exact apply_shiftLeft_eq_ok_iff
  · intro hRoom
    rcases lt_or_ge n 0 with hNeg | hNonneg
    · exact ⟨_, apply_shiftLeft_eq_ok_iff.2
        (apply_shiftRight_of_nonneg (by omega) a)⟩
    · exact ⟨_, (apply_shiftLeft_of_nonneg_iff hNonneg).2
        ⟨hRoom, rfl⟩⟩
  · exact exists_apply_shiftLeft_eq_error
  · intro hn
    have hPower := apply_power_integers hn 2
    refine ⟨?_, ?_, ?_⟩
    · intro v hShift
      rcases (apply_shiftLeft_of_nonneg_iff hn).1 hShift with
        ⟨-, rfl⟩
      rw [hPower, apply_shiftRight_of_nonneg hn,
        Bits.shiftDown_mul_pow]
      exact ⟨rfl, rfl⟩
    · have hNe : (2 : ℤ) ^ n.toNat ≠ 0 := by
        positivity
      refine ⟨_, apply_shiftRight_of_nonneg hn a, ?_⟩
      rw [hPower, Bits.shiftDown_eq_fdiv]
      exact apply_divide_integers hNe a
    · intro hm
      have hSum : (m + n).toNat = m.toNat + n.toNat :=
        Int.toNat_add hm hn
      refine ⟨.integer (Bits.shiftDown a (m + n).toNat), ?_,
        apply_shiftRight_of_nonneg (Int.add_nonneg hm hn) a⟩
      rw [apply_shiftRight_of_nonneg hm, hSum,
        Bits.shiftDown_add]
      exact apply_shiftRight_of_nonneg hn _

/-
  Minus seven by minus two leaves minus one, and shifted up
  by seventy places and down again it is back.
-/
theorem apply_integers_consistent_negative :
    (∃ q r,
      apply .divide (.integer (-7)) (.integer (-2)) =
          .ok (.integer q) ∧
        apply .remainder (.integer (-7)) (.integer (-2)) =
          .ok (.integer r) ∧
        IsFloorDivision (-7) (-2) q r) ∧
      ∃ v,
        apply .shiftLeft (.integer (-7)) (.integer 70) =
            .ok v ∧
          apply .shiftRight v (.integer 70) =
            .ok (.integer (-7)) := by
  rcases apply_integers_consistent (-7) (-2) 0 70 with
    ⟨hDivides, -, -, hRoom, -, hShifts⟩
  rcases hRoom (by decide) with ⟨v, hUp⟩
  exact ⟨hDivides (by decide), v, hUp,
    ((hShifts (by decide)).1 v hUp).2⟩

end Binary

end StackCalc
