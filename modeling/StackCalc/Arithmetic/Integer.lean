import StackCalc.Fault.Basic

/-
  This file defines the operations on integers that work
  on their bits, an integer being an endless row of bits
  that from some place on are all equal, and the powers.

  Key definitions include:
    * `StackCalc.Bits.conjoin`
    * `StackCalc.Bits.disjoin`
    * `StackCalc.Bits.exclude`
    * `StackCalc.Bits.hasRoom`
    * `StackCalc.Bits.shiftLeft`
    * `StackCalc.Bits.shiftRight`
    * `StackCalc.intPower`
-/

------------------------------------------------------------
-- Bits
------------------------------------------------------------

namespace StackCalc

namespace Bits

/- The bits of the first number not in the second. -/
def without
    (m n : Nat) : Nat :=
  m ^^^ (m &&& n)

/- The bits in both integers. -/
def conjoin : Int → Int → Int
  | .ofNat m, .ofNat n => .ofNat (m &&& n)
  | .ofNat m, .negSucc n => .ofNat (without m n)
  | .negSucc m, .ofNat n => .ofNat (without n m)
  | .negSucc m, .negSucc n => .negSucc (m ||| n)

/- The bits in one of the integers or in both. -/
def disjoin : Int → Int → Int
  | .ofNat m, .ofNat n => .ofNat (m ||| n)
  | .ofNat m, .negSucc n => .negSucc (without n m)
  | .negSucc m, .ofNat n => .negSucc (without m n)
  | .negSucc m, .negSucc n => .negSucc (m &&& n)

/- The bits in exactly one of the integers. -/
def exclude : Int → Int → Int
  | .ofNat m, .ofNat n => .ofNat (m ^^^ n)
  | .ofNat m, .negSucc n => .negSucc (m ^^^ n)
  | .negSucc m, .ofNat n => .negSucc (m ^^^ n)
  | .negSucc m, .negSucc n => .ofNat (m ^^^ n)

end Bits

end StackCalc

------------------------------------------------------------
-- Shifts
------------------------------------------------------------

namespace StackCalc

namespace Bits

/-
  The most words of thirty bits that an integer can have: a
  word takes four bytes, twenty-four bytes come before the
  words, and all of them are counted in sixty-three bits.
-/
def wordLimit : Nat :=
  2305843009213693945

/- How many words of thirty bits an integer has. -/
def wordCount (z : Int) : Nat :=
  if z = 0 then 0 else z.natAbs.log2 / 30 + 1

/-
  Whether an integer has room to be shifted up by `n`
  places: the words that they take, the last of them in
  part, are left beside its own. Zero stays as it is.
-/
def hasRoom
    (z : Int)
    (n : Nat) : Bool :=
  z = 0 || (n + 29) / 30 ≤ wordLimit - wordCount z

/- Shift the bits up by `n` places. -/
def shiftUp
    (z : Int)
    (n : Nat) :
    Except ArithmeticFault Int :=
  if z = 0 then .ok 0
  else if hasRoom z n then .ok (z * Int.pow 2 n)
  else .error .beyondRange

/- Shift the bits down by `n` places. -/
def shiftDown
    (z : Int)
    (n : Nat) : Int :=
  z >>> n

/- Shift up by a count, or down if it is negative. -/
def shiftLeft
    (z count : Int) :
    Except ArithmeticFault Int :=
  if 0 ≤ count then shiftUp z count.toNat
  else .ok (shiftDown z (-count).toNat)

/- Shift down by a count, or up if it is negative. -/
def shiftRight
    (z count : Int) :
    Except ArithmeticFault Int :=
  if 0 ≤ count then .ok (shiftDown z count.toNat)
  else shiftUp z (-count).toNat

end Bits

end StackCalc

------------------------------------------------------------
-- Powers
------------------------------------------------------------

namespace StackCalc

/-
  A power of an integer. The powers of zero, of one and of
  minus one are found without multiplying, however large
  the exponent.
-/
def intPower
    (z : Int)
    (n : Nat) : Int :=
  if z = 0 then if n = 0 then 1 else 0
  else if z = 1 then 1
  else if z = -1 then if n % 2 = 0 then 1 else -1
  else Int.pow z n

/- The shortcuts agree with repeated multiplication. -/
theorem intPower_eq_pow
    (z : Int)
    (n : Nat) :
    intPower z n = Int.pow z n := by
  show intPower z n = z ^ n
  unfold intPower
  split
  case isTrue hZero =>
    subst hZero
    split
    · simp_all
    · rename_i hn
      exact (Int.zero_pow hn).symm
  case isFalse =>
    split
    case isTrue hOne =>
      subst hOne
      exact (Int.one_pow).symm
    case isFalse =>
      split
      case isTrue hNeg =>
        subst hNeg
        split <;> rename_i hn
        · obtain ⟨k, rfl⟩ : ∃ k, n = 2 * k :=
            ⟨n / 2, by omega⟩
          rw [Int.pow_mul]
          exact (Int.one_pow).symm
        · obtain ⟨k, rfl⟩ : ∃ k, n = 2 * k + 1 :=
            ⟨n / 2, by omega⟩
          rw [Int.pow_succ, Int.pow_mul]
          show (-1 : Int) = 1 ^ k * -1
          rw [Int.one_pow]
          rfl
      case isFalse =>
        rfl

end StackCalc
