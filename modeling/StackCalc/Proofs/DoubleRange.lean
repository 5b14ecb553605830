import StackCalc.Decimal.Ratio
import StackCalc.Numbers.Storage

/-
  Integers that an array can store lie within the range of
  doubles.

  A double is rounded and packed from a mantissa and an
  exponent. The bounds on these are followed through the
  steps of a conversion, generously, since a stored integer
  is far below the greatest double.

  Main declarations:
    * `Double.Within`
    * `Double.within_roundWithAccuracy`
    * `Double.within_unpack_pack`
    * `Double.isBounded_ofNat`
    * `floatOfInt?_of_fits`
-/

------------------------------------------------------------
-- Rounding
------------------------------------------------------------

namespace StackCalc

namespace Double

open Float.Model Float.Model.UnpackedFloat

/-
  A finite double whose mantissa has at most `n + 1` bits
  and whose exponent is at most `k`.
-/
inductive Within
    (n : Nat)
    (k : Int) :
    UnpackedFloat → Prop
  | zero
      (s : Sign) :
      Within n k (.zero s)
  | finite
      {s : Sign}
      {m : Nat}
      {e : Int}
      {hm : 0 < m}
      (hLog : m.log2 ≤ n)
      (hExponent : e ≤ k) :
      Within n k (.finite s m e hm)

theorem Within.mono
    {n n' : Nat}
    {k k' : Int}
    {x : UnpackedFloat}
    (h : Within n k x)
    (hn : n ≤ n')
    (hk : k ≤ k') :
    Within n' k' x := by
  cases h with
  | zero s =>
      exact .zero s
  | finite hLog hExponent =>
      exact .finite (Nat.le_trans hLog hn)
        (Int.le_trans hExponent hk)

theorem Within.isInf
    {n : Nat}
    {k : Int}
    {x : UnpackedFloat}
    (h : Within n k x) :
    x.isInf = false := by
  cases h with
  | _ =>
      rfl

theorem log2_le_log2
    {a b : Nat}
    (h : a ≤ b) :
    a.log2 ≤ b.log2 := by
  by_cases ha : a = 0
  · simp [ha]
  · have hb : b ≠ 0 := by
      omega
    rw [Nat.le_log2 hb]
    exact Nat.le_trans (Nat.log2_self_le ha) h

/- One more adds at most one bit. -/
theorem log2_succ_le
    (m : Nat) :
    (m + 1).log2 ≤ m.log2 + 1 := by
  have hLt : m < 2 ^ (m.log2 + 1) := Nat.lt_log2_self
  have hPow : 2 ^ (m.log2 + 1) < 2 ^ (m.log2 + 2) :=
    Nat.pow_lt_pow_right (by decide) (by omega)
  have hLog : (m + 1).log2 < m.log2 + 2 := by
    rw [Nat.log2_lt (by omega)]
    omega
  omega

theorem log2_mul_le
    (a b : Nat) :
    (a * b).log2 ≤ a.log2 + b.log2 + 1 := by
  by_cases hZero : a * b = 0
  · simp [hZero]
  · have ha : a < 2 ^ (a.log2 + 1) := Nat.lt_log2_self
    have hb : b < 2 ^ (b.log2 + 1) := Nat.lt_log2_self
    have hLt :
        a * b < 2 ^ (a.log2 + 1) * 2 ^ (b.log2 + 1) :=
      Nat.mul_lt_mul'' ha hb
    rw [← Nat.pow_add, ← Nat.log2_lt hZero] at hLt
    omega

/- Shifting down never makes a mantissa greater. -/
theorem mantissa_shiftRight_le
    (em : ExtendedMantissa)
    (n : Nat) :
    (em >>> n).mantissa ≤ em.mantissa := by
  induction n with
  | zero =>
      exact Nat.le_refl _
  | succ n ih =>
      show (em >>> n).mantissa / 2 ≤ em.mantissa
      omega

/- Rounding adds at most one to a mantissa. -/
theorem roundedMantissa_le
    (em : ExtendedMantissa) :
    em.roundedMantissa ≤ em.mantissa + 1 := by
  rcases em with ⟨m, r, s⟩
  cases r with
  | false =>
      cases s with
      | _ =>
          exact Nat.le_succ m
  | true =>
      cases s with
      | false =>
          show m + m % 2 ≤ m + 1
          omega
      | true =>
          exact Nat.le_refl _

/- The exponent that a double of some size is given. -/
theorem targetExponent_eq
    (e : Int) :
    Format.binary64.targetExponent e =
      max (e - 53) (-1074) :=
  rfl

/- What a shift to the exponent of the format gives. -/
theorem shiftToTargetExponent_le
    {m n : Nat}
    {e k : Int}
    (accuracy : Accuracy)
    (hm : m.log2 ≤ n)
    (he : e ≤ k)
    (hk : -1074 ≤ k) :
    (shiftToTargetExponent Format.binary64 m e
        accuracy).1.mantissa ≤ m ∧
      (shiftToTargetExponent Format.binary64 m e
        accuracy).2 ≤ k + n := by
  constructor
  · have hFirst :
        (ExtendedMantissa.ofMantissaAndAccuracy m
          accuracy).mantissa = m := by
      cases accuracy with
      | exact =>
          rfl
      | inexact o =>
          cases o with
          | _ =>
              rfl
    exact Nat.le_trans (mantissa_shiftRight_le _ _)
      (Nat.le_of_eq hFirst)
  · simp only [shiftToTargetExponent, shiftToExponent,
      targetExponent_eq, totalExponent]
    omega

/- Zero in one case and a double within bounds otherwise. -/
theorem within_dite
    {n : Nat}
    {k : Int}
    {p : Prop}
    [Decidable p]
    {x : ¬ p → UnpackedFloat}
    (s : Sign)
    (h : ∀ hp, Within n k (x hp)) :
    Within n k (if hp : p then .zero s else x hp) := by
  by_cases hp : p
  · rw [dif_pos hp]
    exact .zero s
  · rw [dif_neg hp]
    exact h hp

/- Rounding keeps a double within wider bounds. -/
theorem within_roundWithAccuracy
    {m n : Nat}
    {e k : Int}
    (s : Sign)
    (accuracy : Accuracy)
    (hm : m.log2 ≤ n)
    (he : e ≤ k)
    (hk : -1074 ≤ k) :
    Within (n + 1) (k + 2 * n + 1)
      (roundWithAccuracy Format.binary64 s m e
        accuracy) := by
  rcases shiftToTargetExponent_le accuracy hm he hk with
    ⟨hMantissa, hExponent⟩
  have hRounded :=
    roundedMantissa_le
      (shiftToTargetExponent Format.binary64 m e accuracy).1
  have hLog :
      (shiftToTargetExponent Format.binary64 m e
        accuracy).1.roundedMantissa.log2 ≤ n + 1 := by
    have hSucc := log2_succ_le m
    refine Nat.le_trans (log2_le_log2 (b := m + 1) ?_) ?_
    · omega
    · omega
  rcases shiftToTargetExponent_le .exact hLog hExponent
      (by omega) with ⟨hLast, hLastExponent⟩
  unfold roundWithAccuracy
  dsimp only
  exact within_dite s fun _ =>
    .finite (Nat.le_trans (log2_le_log2 hLast) hLog)
      (by omega)

end Double

end StackCalc

------------------------------------------------------------
-- Packing
------------------------------------------------------------

namespace StackCalc

namespace Double

open Float.Model Float.Model.UnpackedFloat

theorem log2_toNat_le
    {w : Nat}
    (v : BitVec (w + 1)) :
    v.toNat.log2 ≤ w := by
  by_cases hZero : v.toNat = 0
  · simp [hZero]
  · have hLt := (Nat.log2_lt hZero).2 v.isLt
    omega

/- Bits with a bounded exponent field are a finite double. -/
theorem within_unpack_packComponents
    {b : Nat}
    {k : Int}
    (s : Sign)
    (v : BitVec 52)
    (hb : b + 1 < 2048)
    (hk : (b : Int) - 1075 ≤ k)
    (hLow : -1074 ≤ k) :
    Within 52 k
      (UnpackedFloat.unpack Format.binary64
        (packComponents Format.binary64 s
          (BitVec.ofNat 11 b) v)) := by
  have hField : (BitVec.ofNat 11 b).toNat = b := by
    rw [BitVec.toNat_ofNat]
    omega
  have hNotAll : BitVec.ofNat 11 b ≠ -1#11 := by
    intro h
    rw [h] at hField
    simp at hField
    omega
  have hExponent :
      unpackExponent (packComponents Format.binary64 s
        (BitVec.ofNat 11 b) v) = BitVec.ofNat 11 b :=
    unpackExponent_packComponents
  have hBias :
      ((unpackExponent (packComponents Format.binary64 s
          (BitVec.ofNat 11 b) v)).toNat : Int) -
        (Format.binary64.exponentBias + 52) = b - 1075 := by
    rw [hExponent, hField]
    simp only [Format.exponentBias]
    omega
  unfold UnpackedFloat.unpack
  dsimp only
  rw [if_neg (fun hAll => hNotAll (hExponent.symm.trans hAll))]
  by_cases hZero : BitVec.ofNat 11 b = 0#11
  · rw [if_pos (hExponent.trans hZero)]
    rw [hZero] at hField
    refine within_dite _ fun _ => .finite ?_ ?_
    · exact Nat.le_trans (log2_toNat_le _) (by decide)
    · simp at hField
      omega
  · rw [if_neg (fun h => hZero (hExponent.symm.trans h))]
    exact .finite (log2_toNat_le _) (by omega)

/- A double within bounds keeps to them when packed. -/
theorem within_unpack_pack
    {n : Nat}
    {k : Int}
    {x : UnpackedFloat}
    (h : Within n k x)
    (hLow : -1074 ≤ k)
    (hHigh : k ≤ 970) :
    Within 52 k
      (UnpackedFloat.unpack Format.binary64
        (UnpackedFloat.pack Format.binary64 x)) := by
  cases h with
  | zero s =>
      exact within_unpack_packComponents (b := 0) s 0
        (by decide) (by omega) hLow
  | @finite s m e hm hLog hExponent =>
      have hBias : (Format.binary64.exponentBias : Int) =
          1023 :=
        rfl
      unfold UnpackedFloat.pack
      simp only [hBias]
      split
      case isTrue hOver =>
        have hOver' : 2048 ≤ (e + 1023 + 52).toNat + 1 := hOver
        omega
      case isFalse =>
        split
        · exact within_unpack_packComponents s _ (by omega)
            (by omega) hLow
        · exact within_unpack_packComponents (b := 0) s _
            (by decide) (by omega) hLow

/- Products of doubles within bounds. -/
theorem within_mul
    {a b : Nat}
    {j k : Int}
    {x y : UnpackedFloat}
    (hx : Within a j x)
    (hy : Within b k y)
    (hLow : -1074 ≤ j + k) :
    Within (a + b + 2) (j + k + 2 * (a + b + 1) + 1)
      (UnpackedFloat.mul Format.binary64 x y) := by
  cases hx with
  | zero s =>
      cases hy with
      | zero s' =>
          exact .zero (s * s')
      | @finite s' m e hm hLog hExponent =>
          exact .zero (s * s')
  | @finite s m e hm hLog hExponent =>
      cases hy with
      | zero s' =>
          exact .zero (s * s')
      | @finite s' m' e' hm' hLog' hExponent' =>
          have hMul := log2_mul_le m m'
          exact within_roundWithAccuracy (s * s') .exact
            (by omega) (by omega) hLow

theorem within_neg
    {n : Nat}
    {k : Int}
    {x : UnpackedFloat}
    (h : Within n k x) :
    Within n k x.neg := by
  cases h with
  | zero s =>
      exact .zero (-s)
  | finite hLog hExponent =>
      exact .finite hLog hExponent

end Double

end StackCalc

------------------------------------------------------------
-- Conversions
------------------------------------------------------------

namespace StackCalc

namespace Double

open Float.Model Float.Model.UnpackedFloat

/- A double that a bounded number was packed into. -/
def IsBounded (x : Float) : Prop :=
  Within 52 900 x.toModel.unpack

/- What is packed within bounds is bounded. -/
theorem isBounded_pack
    {n : Nat}
    {k : Int}
    {x : UnpackedFloat}
    (h : Within n k x)
    (hk : k ≤ 900) :
    IsBounded (Float.ofModel (Float.Model.pack x)) :=
  within_unpack_pack (h.mono (Nat.le_refl n) hk) (by decide)
    (by decide)

/- A number is rounded to the bits of a mantissa. -/
theorem within_round
    {m n : Nat}
    (s : Sign)
    (h : m.log2 ≤ n) :
    Within (n + 54) (2 * (n + 53) + 1)
      (round Format.binary64 s m 0) := by
  unfold UnpackedFloat.round
  simp only [decreaseExponent]
  generalize hTarget :
    Format.binary64.targetExponent (totalExponent m 0) = t
  -- The number is shifted up by at most fifty-two bits.
  have hShift : (0 - t).toNat ≤ 52 := by
    rw [targetExponent_eq] at hTarget
    simp only [totalExponent] at hTarget
    omega
  have hLog : (m <<< (0 - t).toNat).log2 ≤ n + 53 := by
    rw [Nat.shiftLeft_eq]
    have hMul := log2_mul_le m (2 ^ (0 - t).toNat)
    rw [Nat.log2_two_pow] at hMul
    omega
  have hBounds :=
    within_roundWithAccuracy (k := 0) s .exact hLog
      (by omega : 0 - ((0 - t).toNat : Int) ≤ 0) (by decide)
  exact hBounds.mono (by omega) (by omega)

/- A word is converted to a double within bounds. -/
theorem within_ofUInt64
    (w : UInt64) :
    Within 117 233
      (UnpackedFloat.ofUInt64 Format.binary64 w) := by
  have hLog : w.toNat.log2 ≤ 63 := log2_toNat_le w.toBitVec
  show Within 117 233
    (normalize Format.binary64 (w.toNat : Int) 0 .positive)
  unfold UnpackedFloat.normalize
  split
  case h_1 hNeg =>
    have hLt := Int.compare_eq_lt.1 hNeg
    omega
  case h_2 =>
    exact .zero .positive
  case h_3 =>
    exact within_round .positive hLog

/- The double for one, by which numbers are multiplied. -/
theorem within_one :
    Within 52 0
      (Float.ofBits 0x3FF0000000000000).toModel.unpack :=
  .finite (m := 2 ^ 52) (by decide) (by decide)

/- A long number is converted to a double within bounds. -/
theorem within_ofScientific
    {n : Nat}
    (h : n ≤ 9223372036854775808) :
    Within 119 184
      (UnpackedFloat.ofScientific Format.binary64 n 0) := by
  have hLog :
      (n <<< Format.binary64.mantissaBits).log2 ≤ 117 := by
    have hMul := log2_mul_le n (2 ^ 53)
    have hn : n.log2 ≤ (2 ^ 63).log2 := log2_le_log2 h
    have hBits : Format.binary64.mantissaBits = 53 := rfl
    rw [Nat.log2_two_pow] at hMul hn
    rw [hBits, Nat.shiftLeft_eq]
    omega
  have hNotTiny :
      ¬ (0 : Int) <
        -((2 ^ Format.binary64.exponentBits : Int) +
          n.log2) := by
    show ¬ (0 : Int) < -((2048 : Int) + n.log2)
    omega
  have hLow : (-1074 : Int) ≤ -53 + 0 := by
    decide
  unfold UnpackedFloat.ofScientific
  refine within_dite .positive fun _ => ?_
  rw [if_neg (by decide), if_neg hNotTiny, if_pos (by decide)]
  exact (within_mul (.finite hLog (Int.le_refl (-53)))
    (.finite (n := 0) (by decide) (Int.le_refl 0))
    hLow).mono (by decide) (by decide)

/- Numbers up to the greatest stored one are bounded. -/
theorem isBounded_ofNat
    {n : Nat}
    (h : n ≤ 9223372036854775808) :
    IsBounded (Float.ofNat n) := by
  show IsBounded (Float.ofScientific n false 0)
  unfold Float.ofScientific
  split
  case isTrue hSmall =>
    have hWord :
        Within 52 233 n.toUInt64.toFloat.toModel.unpack :=
      within_unpack_pack (within_ofUInt64 n.toUInt64)
        (by decide) (by decide)
    exact isBounded_pack (within_mul hWord within_one
      (by decide)) (by decide)
  case isFalse hLarge =>
    exact isBounded_pack (within_ofScientific h) (by decide)

end Double

/- Stored integers are within the range of doubles. -/
theorem floatOfInt?_of_fits
    {z : Int}
    (h : Storage.fits z = true) :
    floatOfInt? z = some (Float.ofInt z) := by
  have hBounded : Double.IsBounded (Float.ofInt z) := by
    rcases Storage.fits_iff.1 h with ⟨hLeast, hGreatest⟩
    simp only [Storage.least, Storage.greatest]
      at hLeast hGreatest
    cases z with
    | ofNat n =>
        rw [Int.ofNat_eq_natCast] at hGreatest
        exact Double.isBounded_ofNat (by omega)
    | negSucc n =>
        have hNat :
            Double.IsBounded (Float.ofNat (n + 1)) :=
          Double.isBounded_ofNat (by omega)
        exact Double.isBounded_pack (Double.within_neg hNat)
          (by decide)
  have hFinite : (Float.ofInt z).isInf = false :=
    Double.Within.isInf hBounded
  simp [floatOfInt?, hFinite]

end StackCalc
